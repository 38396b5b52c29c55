import Landscape.Document.Basic
import Landscape.Grammar.Parser

/-!
The words of the grammar: keywords, names, values, and the short phrases made of them.

Keywords are names by their text. Some of them are announced as expected when they are missing;
those allowed everywhere in a body are not, since every message would then list all of them.
-/

namespace Landscape.Grammar

open Landscape.Grammar.Parser

/-- The keywords that open a declaration inside a body. Such a name is never skipped there. -/
def declarationKeywords : List String :=
  ["Domain", "Subdomain", "BoundedContext", "ContextMap", "UseCase", "Aggregate", "Service",
    "Module", "Entity", "ValueObject", "DomainEvent", "Event", "CommandEvent",
    "DataTransferObject", "enum", "Enum"]

/-- The keywords that open the known top-level declarations. -/
def topLevelKeywords : List String :=
  ["Domain", "BoundedContext", "ContextMap", "UseCase"]

/-- Whether a token is one of the given names. -/
def isOneOf (keywords : List String) : Token → Bool
  | .name text => keywords.contains text
  | _ => false

def isDeclarationKeyword : Token → Bool :=
  isOneOf declarationKeywords

def isTopLevelKeyword : Token → Bool :=
  isOneOf topLevelKeywords

/-- A keyword that is announced as expected. -/
def keyword (text : String) : Parser Unit :=
  exactly (.name text)

/-- A keyword that is not announced. -/
def quietKeyword (text : String) : Parser Unit :=
  token (fun t => if t.isName text then some () else none) []

/-- Any name. -/
def name : Parser String :=
  token (fun | .name text => some text | _ => none) [.name]

/-- Any string. -/
def string : Parser String :=
  token (fun | .string text => some text | _ => none) [.string]

/-- A name that is not reserved, opening a block of its own. -/
def blockKeyword (reserved : Token → Bool) : Parser String :=
  token (fun t =>
    match t with
    | .name text => if reserved t then none else some text
    | _ => none) [.name]

/-- A keyword that names a kind of relationship. -/
def relationKeyword : Parser String :=
  token (fun | .relation text => some text | _ => none) [.relation]

def reference : Parser Reference :=
  located do
    let name ← name
    return fun span => ⟨name, span⟩

def references : Parser (List Reference) :=
  separated reference

/-- One value of an attribute. A relationship keyword counts as a name here. -/
def value : Parser Value :=
  token (fun
    | .string text => some (.string text)
    | .name text | .relation text => some (.name text)
    | .number digits => some (.number digits)
    | _ => none) [.string, .name]

/-- A setting `key = value, value`. -/
def attributeSetting : Parser Attribute :=
  located do
    let key ← name
    exactly .equals
    let values ← separated value
    return fun span => ⟨key, values, span⟩

/-- A list of roles in brackets. -/
def roles : Parser (List String) :=
  between .openBracket .closeBracket (separated name)

end Landscape.Grammar
