import Landscape.Document.Basic
import Landscape.OrderedSet
import Landscape.Relation.Pattern
import Landscape.Text.Uppercase

/-!
Classifying relationships.

A relationship can say what it is in several ways at once. Its label comes from the first of these
that is there: the keyword, a `type` in its body, an arrow with no role next to it, the roles of an
upstream and a downstream side. Its roles are collected from both sides whatever the label is.
-/

namespace Landscape

open Text

namespace RelationDecl

/-- The label of a relationship that says nothing about itself. -/
def unknownLabel : String := "Unknown"

/-- The roles of both sides in upper case, each at its first occurrence. -/
def roles (decl : RelationDecl) : List String :=
  OrderedSet.ofList <|
    (decl.left.rolesBefore ++ decl.left.rolesAfter ++ decl.right.rolesBefore ++
      decl.right.rolesAfter).map upper

/-- The arrow, unless a role stands next to it: then it belongs to the notation of the roles. -/
def plainArrow? (decl : RelationDecl) : Option Arrow :=
  if decl.left.rolesAfter.isEmpty && decl.right.rolesBefore.isEmpty then
    decl.connection.arrow
  else
    none

/-- The first type that the body states, empty ones aside. -/
def statedType? (decl : RelationDecl) : Option String :=
  decl.attributes.findSome? fun
    | .type value => if value.isEmpty then none else some value
    | _ => none

/-- The first technology that the body states. -/
def technology? (decl : RelationDecl) : Option String :=
  decl.attributes.findSome? fun
    | .technology value => some value
    | _ => none

/-- Whether the roles make one side the upstream of the other. -/
def isUpstreamDownstream (decl : RelationDecl) : Bool :=
  decl.roles.contains RelationPattern.upstream.label &&
    decl.roles.contains RelationPattern.downstream.label

/-- What a relationship is called. -/
def label (decl : RelationDecl) : String :=
  match decl.connection.keyword, decl.statedType?, decl.plainArrow? with
  | some keyword, _, _ => keyword
  | none, some type, _ => type
  | none, none, some arrow => arrow.text
  | none, none, none =>
    if decl.isUpstreamDownstream then RelationPattern.upstreamDownstream.label else unknownLabel

end RelationDecl

end Landscape
