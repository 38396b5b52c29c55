import Landscape.Token.Basic

/-!
Documents: what a source text declares, before any name is resolved.

A document is a list of top-level declarations. Those with a body hold entries, which nest: an entry
is an attribute, a declaration with entries of its own, or a block that means nothing to this
library and is kept only because declarations may be nested inside it. Everything carries the span
it was written at.
-/

namespace Landscape

/-- One value of an attribute, told apart by how it was written. -/
inductive Value
  | string (text : String)
  | name (text : String)
  | number (text : String)
deriving Repr, DecidableEq

namespace Value

def text : Value → String
  | string text | name text | number text => text

end Value

/-- A setting `key = value, value`. -/
structure Attribute where
  key : String
  values : List Value
  span : Span
deriving Repr, DecidableEq

namespace Attribute

def firstValue? (a : Attribute) : Option String :=
  a.values.head?.map Value.text

end Attribute

/-- The kind of declaration an attribute stands in, which decides who reads it. -/
inductive Scope
  | subdomain
  | context
  | plain
deriving Repr, DecidableEq

/-- The kinds of domain object. -/
inductive ObjectKind
  | entity
  | valueObject
  | domainEvent
  | commandEvent
  | dataTransferObject
  | enumeration
deriving Repr, DecidableEq

namespace ObjectKind

/-- The kind that a keyword opens. Two kinds have two keywords. -/
def ofKeyword? : String → Option ObjectKind
  | "Entity" => some entity
  | "ValueObject" => some valueObject
  | "DomainEvent" | "Event" => some domainEvent
  | "CommandEvent" => some commandEvent
  | "DataTransferObject" => some dataTransferObject
  | "enum" | "Enum" => some enumeration
  | _ => none

end ObjectKind

/-- The kinds of declaration that have a name and a body and nothing else. -/
inductive GroupKind
  | aggregate
  | service
  | «module»
deriving Repr, DecidableEq

/-- A mention of another declaration. -/
structure Reference where
  name : String
  span : Span
deriving Repr, DecidableEq

/-- An entity given by its name alone. No source text produces one; a document that was put together
by other means may hold them. -/
structure BareEntity where
  name : String
  span : Span
deriving Repr, DecidableEq

/-- What a nested declaration is, apart from its body. -/
inductive Heading
  | subdomain (name : String) (entities : List BareEntity)
  | object (kind : ObjectKind) (name : String)
  | group (kind : GroupKind) (name : String)
  | unknown (keyword : String) (words : List String)
deriving Repr, DecidableEq

/-- An entry of a body. -/
inductive Entry
  | setting (scope : Scope) (setting : Attribute)
  | entity (entity : BareEntity)
  | declaration (heading : Heading) (body : List Entry) (span : Span)
  | unknownLine (keyword : String) (words : List String) (span : Span)
deriving Repr

/-- The settings in a body, whoever reads them. -/
def settingsIn (body : List Entry) : List Attribute :=
  body.filterMap fun
    | .setting _ setting => some setting
    | _ => none

structure DomainDecl where
  name : String
  body : List Entry
  span : Span
deriving Repr

structure ContextDecl where
  name : String
  implements : List Reference
  realizes : List Reference
  refines : Option Reference
  body : List Entry
  span : Span
deriving Repr

/-- A setting of a context map. -/
inductive MapSetting
  | type (value : String)
  | state (value : String)
  | contains (references : List Reference)
  | other (setting : Attribute)
deriving Repr, DecidableEq

/-- The setting of a map that an attribute states: two keys have a form of their own. -/
def MapSetting.ofAttribute (setting : Attribute) : MapSetting :=
  match setting.key, setting.firstValue? with
  | "type", some value => .type value
  | "state", some value => .state value
  | _, _ => .other setting

/-- One side of a relationship, with the roles written before and after its name. -/
structure Endpoint where
  name : String
  rolesBefore : List String
  rolesAfter : List String
  span : Span
deriving Repr, DecidableEq

/-- What stands between the two sides of a relationship. -/
structure Connection where
  keyword : Option String
  arrow : Option Arrow
deriving Repr, DecidableEq

inductive RelationAttribute
  | type (value : String)
  | technology (value : String)
  | other (setting : Attribute)
deriving Repr, DecidableEq

/-- The property of a relationship that an attribute states: two keys have a form of their own. -/
def RelationAttribute.ofAttribute (setting : Attribute) : RelationAttribute :=
  match setting.key, setting.firstValue? with
  | "type", some value => .type value
  | "implementationTechnology", some value => .technology value
  | _, _ => .other setting

structure RelationDecl where
  left : Endpoint
  connection : Connection
  right : Endpoint
  name : Option String
  attributes : List RelationAttribute
  span : Span
deriving Repr, DecidableEq

structure MapDecl where
  name : Option String
  settings : List MapSetting
  relations : List RelationDecl
  span : Span
deriving Repr, DecidableEq

inductive UseCasePart
  | actor (value : String)
  | secondaryActors (values : List String)
  | benefit (value : String)
  | scope (value : String)
  | level (value : String)
  | other (entry : Entry)
deriving Repr

/-- The part of a use case that an entry states: five keys have a form of their own. -/
def UseCasePart.ofEntry (entry : Entry) : UseCasePart :=
  match entry with
  | .setting .plain setting =>
    match setting.key, setting.firstValue? with
    | "actor", some value => .actor value
    | "secondaryActors", some _ => .secondaryActors (setting.values.map Value.text)
    | "benefit", some value => .benefit value
    | "scope", some value => .scope value
    | "level", some value => .level value
    | _, _ => .other entry
  | _ => .other entry

structure UseCaseDecl where
  name : String
  parts : List UseCasePart
  span : Span
deriving Repr

/-- A top-level declaration that means nothing to this library. -/
structure UnknownDecl where
  keyword : String
  words : List String
  body : Option (List Entry)
  span : Span
deriving Repr

/-- A top-level declaration. -/
inductive Element
  | domain (decl : DomainDecl)
  | context (decl : ContextDecl)
  | map (decl : MapDecl)
  | useCase (decl : UseCaseDecl)
  | unknown (decl : UnknownDecl)
deriving Repr

/-- Everything that a source text declares. -/
structure Document where
  elements : List Element
deriving Repr

namespace Document

def isEmpty (d : Document) : Bool :=
  d.elements.isEmpty

end Document

end Landscape
