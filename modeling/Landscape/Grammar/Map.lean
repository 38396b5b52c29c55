import Landscape.Grammar.Terminal

/-!
Context maps.

The body of a map holds settings and relationships. Unlike other bodies it is strict: whatever is
neither of the two is an error. Role lists bind to the endpoint before them where they can.
-/

namespace Landscape.Grammar

open Landscape.Grammar.Parser

def arrowMark (arrow : Arrow) : Parser Arrow := do
  exactly (.arrow arrow)
  return arrow

def anyArrow : Parser Arrow :=
  firstOf [arrowMark .right, arrowMark .left, arrowMark .both]

/-- A relationship keyword, an arrow, or the one followed by the other. -/
def connection : Parser Connection :=
  firstOf [
    do
      let keyword ← relationKeyword
      let arrow ← optional anyArrow
      return ⟨some keyword, arrow⟩,
    do
      let arrow ← anyArrow
      return ⟨none, some arrow⟩]

/-- One side of a relationship. -/
def endpoint : Parser Endpoint :=
  located do
    let before ← optional roles
    let name ← name
    let after ← optional roles
    return fun span => ⟨name, before.getD [], after.getD [], span⟩

/-- The body of a relationship: settings, with any tokens but braces between them. -/
def relationAttributes : Parser (List RelationAttribute) :=
  (fun entries => entries.filterMap id) <$> braced (many (orElse
    ((fun setting => some (RelationAttribute.ofAttribute setting)) <$> attributeSetting)
    ((fun _ => none) <$> anyToken (fun t => !t.isBrace))))

def relation : Parser RelationDecl :=
  located do
    let left ← endpoint
    let connection ← connection
    let right ← endpoint
    let name ← optional (do exactly .colon; name)
    let attributes ← optional relationAttributes
    return fun span => ⟨left, connection, right, name, attributes.getD [], span⟩

/-- One entry of a map. -/
inductive MapEntry
  | setting (setting : MapSetting)
  | relation (decl : RelationDecl)

namespace MapEntry

def setting? : MapEntry → Option MapSetting
  | setting s => some s
  | relation _ => none

def relation? : MapEntry → Option RelationDecl
  | setting _ => none
  | relation r => some r

end MapEntry

def mapEntry : Parser MapEntry :=
  firstOf [
    do
      keyword "contains"
      let references ← references
      return .setting (.contains references),
    (fun setting => .setting (MapSetting.ofAttribute setting)) <$> attributeSetting,
    .relation <$> relation]

/-- A context map. Its name may be left out, its body may not. -/
def contextMap : Parser MapDecl :=
  located do
    keyword "ContextMap"
    let name ← optional name
    let entries ← braced (many mapEntry)
    return fun span =>
      ⟨name, entries.filterMap MapEntry.setting?, entries.filterMap MapEntry.relation?, span⟩

end Landscape.Grammar
