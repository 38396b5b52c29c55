import Landscape.Grammar.Body
import Landscape.Grammar.Map

/-!
Whole documents: a list of top-level declarations and nothing else.

Whatever is not one of the known declarations is read as a declaration without meaning, which goes
on to the next known top-level keyword or ends with a body of its own.
-/

namespace Landscape.Grammar

open Landscape.Grammar.Parser

def domain : Parser DomainDecl :=
  located do
    keyword "Domain"
    let name ← name
    let entries ← optional (braced (body .subdomain))
    return fun span => ⟨name, entries.getD [], span⟩

/-- A clause between the name of a context and its body. -/
inductive ContextClause
  | implements (references : List Reference)
  | realizes (references : List Reference)
  | refines (reference : Reference)

namespace ContextClause

def implemented : ContextClause → List Reference
  | implements references => references
  | _ => []

def realized : ContextClause → List Reference
  | realizes references => references
  | _ => []

def refined? : ContextClause → Option Reference
  | refines reference => some reference
  | _ => none

end ContextClause

def contextClause : Parser ContextClause :=
  firstOf [
    do
      keyword "implements"
      let references ← references
      return .implements references,
    do
      keyword "realizes"
      let references ← references
      return .realizes references,
    do
      keyword "refines"
      let reference ← reference
      return .refines reference]

/-- A bounded context. References of repeated clauses are collected, except that a context refines
the last one it names. -/
def boundedContext : Parser ContextDecl :=
  located do
    keyword "BoundedContext"
    let name ← name
    let clauses ← many contextClause
    let entries ← optional (braced (body .context))
    return fun span =>
      { name,
        implements := clauses.flatMap ContextClause.implemented,
        realizes := clauses.flatMap ContextClause.realized,
        refines := (clauses.filterMap ContextClause.refined?).getLast?,
        body := entries.getD [],
        span }

def useCase : Parser UseCaseDecl :=
  located do
    keyword "UseCase"
    let name ← name
    let entries ← optional (braced (body .plain))
    return fun span => ⟨name, (entries.getD []).map UseCasePart.ofEntry, span⟩

/-- The mention of another file. It has no meaning here, but no body either. -/
def importLine : Parser UnknownDecl :=
  located do
    keyword "import"
    let path ← string
    return fun span => ⟨"import", [path], none, span⟩

/-- A top-level declaration without meaning. -/
def unknownDeclaration : Parser UnknownDecl :=
  located do
    let keyword ← blockKeyword isTopLevelKeyword
    let words ← many (anyToken fun t => !(t.isBrace || isTopLevelKeyword t))
    let entries ← optional (braced (body .plain))
    return fun span => ⟨keyword, words.map Token.contents, entries, span⟩

def element : Parser Element :=
  firstOf [
    Element.domain <$> domain,
    Element.context <$> boundedContext,
    Element.map <$> contextMap,
    Element.useCase <$> useCase,
    Element.unknown <$> importLine,
    Element.unknown <$> unknownDeclaration]

def document : Parser Document := do
  let elements ← many element
  endOfInput
  return ⟨elements⟩

end Landscape.Grammar

namespace Landscape

/-- Reads a list of lexemes as a document. -/
def Document.ofLexemes (lexemes : List Lexeme) : Except Grammar.Failure Document :=
  match Grammar.document lexemes with
  | .ok document _ _ => .ok document
  | .fail failure => .error failure

end Landscape
