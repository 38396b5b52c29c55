import Landscape.Grammar.Document

/-!
# Writing documents

The tokens that a document is written with. Every declaration gets its braces,
clauses and role lists are left out when they are empty, and what a map, a
relationship or a use case has a form of its own for is written as the setting
it is read from.

Not every document can be written. Some hold what the grammar never produces,
such as a setting without values, and some would be read as something else, such
as an unknown block with a known keyword. `Document.isWritable` rules these out.
It does not restrict names: a keyword is as good a name as any other, since every
place where the grammar looks for a keyword also looks at what comes after it.
-/

namespace Landscape

open Grammar

/-- Items with commas between them. -/
def commaSeparated : List Token → List Token
  | [] => []
  | first :: others => first :: others.flatMap fun token => [.comma, token]

def inBraces (tokens : List Token) : List Token :=
  .openBrace :: (tokens ++ [.closeBrace])

/-! ## Settings -/

def Value.token : Value → Token
  | string text => .string text
  | name text => .name text
  | number text => .number text

namespace Attribute

def tokens (a : Attribute) : List Token :=
  .name a.key :: .equals :: commaSeparated (a.values.map Value.token)

def isWritable (a : Attribute) : Bool :=
  !a.values.isEmpty

end Attribute

/-! ## Bodies -/

namespace ObjectKind

/-- Of two keywords for one kind, the longer or the lowercase one. -/
def keyword : ObjectKind → String
  | entity => "Entity"
  | valueObject => "ValueObject"
  | domainEvent => "DomainEvent"
  | commandEvent => "CommandEvent"
  | dataTransferObject => "DataTransferObject"
  | enumeration => "enum"

end ObjectKind

namespace GroupKind

def keyword : GroupKind → String
  | aggregate => "Aggregate"
  | service => "Service"
  | «module» => "Module"

end GroupKind

namespace Heading

def tokens : Heading → List Token
  | subdomain name _ => [.name "Subdomain", .name name]
  | object kind name => [.name kind.keyword, .name name]
  | group kind name => [.name kind.keyword, .name name]
  | unknown keyword words => .name keyword :: words.map .string

/-- Entities in a heading come from no text. -/
def isWritable : Heading → Bool
  | subdomain _ entities => entities.isEmpty
  | object .. => true
  | group .. => true
  | unknown keyword _ => !declarationKeywords.contains keyword

end Heading

mutual

def Entry.tokens : Entry → List Token
  | .setting _ setting => setting.tokens
  | .entity _ => []
  | .declaration heading body _ => heading.tokens ++ inBraces (bodyTokens body)
  | .unknownLine .. => []

def bodyTokens : List Entry → List Token
  | [] => []
  | entry :: rest => entry.tokens ++ bodyTokens rest

end

mutual

/-- Whether an entry can be written where settings have a certain scope. -/
def Entry.isWritable (scope : Scope) : Entry → Bool
  | .setting scope' setting => scope' = scope && setting.isWritable
  | .entity _ => false
  | .declaration heading body _ => heading.isWritable && isWritableBody scope body
  | .unknownLine .. => false

def isWritableBody (scope : Scope) : List Entry → Bool
  | [] => true
  | entry :: rest => entry.isWritable scope && isWritableBody scope rest

end

/-! ## Contexts -/

/-- References with commas between them. -/
def referenceTokens (references : List Reference) : List Token :=
  commaSeparated (references.map fun r => .name r.name)

namespace Grammar.ContextClause

def tokens : ContextClause → List Token
  | implements references => .name "implements" :: referenceTokens references
  | realizes references => .name "realizes" :: referenceTokens references
  | refines reference => [.name "refines", .name reference.name]

end Grammar.ContextClause

namespace ContextDecl

/-- The clauses of a context, one for each list that is not empty. -/
def clauses (decl : ContextDecl) : List ContextClause :=
  (if decl.implements.isEmpty then [] else [.implements decl.implements]) ++
    (if decl.realizes.isEmpty then [] else [.realizes decl.realizes]) ++
    decl.refines.toList.map .refines

end ContextDecl

/-! ## Maps -/

namespace MapSetting

def tokens : MapSetting → List Token
  | contains references => .name "contains" :: referenceTokens references
  | type value => Attribute.tokens ⟨"type", [.string value], .none⟩
  | state value => Attribute.tokens ⟨"state", [.string value], .none⟩
  | other setting => setting.tokens

/-- The keys of those settings that have a form of their own. -/
def ownKeys : List String :=
  ["type", "state"]

def isWritable : MapSetting → Bool
  | contains references => !references.isEmpty
  | type _ => true
  | state _ => true
  | other setting => setting.isWritable && !ownKeys.contains setting.key

end MapSetting

def roleTokens : List String → List Token
  | [] => []
  | roles => .openBracket :: (commaSeparated (roles.map .name) ++ [.closeBracket])

namespace Endpoint

def tokens (e : Endpoint) : List Token :=
  roleTokens e.rolesBefore ++ .name e.name :: roleTokens e.rolesAfter

end Endpoint

namespace Connection

def tokens (c : Connection) : List Token :=
  c.keyword.toList.map .relation ++ c.arrow.toList.map .arrow

end Connection

namespace RelationAttribute

/-- The setting that a property of a relationship is read from. -/
def toAttribute : RelationAttribute → Attribute
  | type value => ⟨"type", [.string value], .none⟩
  | technology value => ⟨"implementationTechnology", [.string value], .none⟩
  | other setting => setting

def ownKeys : List String :=
  ["type", "implementationTechnology"]

def isWritable : RelationAttribute → Bool
  | type _ => true
  | technology _ => true
  | other setting => setting.isWritable && !ownKeys.contains setting.key

end RelationAttribute

namespace RelationDecl

def nameTokens (decl : RelationDecl) : List Token :=
  match decl.name with
  | some name => [.colon, .name name]
  | none => []

def tokens (decl : RelationDecl) : List Token :=
  decl.left.tokens ++ (decl.connection.tokens ++ (decl.right.tokens ++ (decl.nameTokens ++
    inBraces (decl.attributes.flatMap fun a => a.toAttribute.tokens))))

def isWritable (decl : RelationDecl) : Bool :=
  (decl.connection.keyword.isSome || decl.connection.arrow.isSome) &&
    decl.attributes.all RelationAttribute.isWritable

end RelationDecl

namespace Grammar.MapEntry

def tokens : MapEntry → List Token
  | setting s => s.tokens
  | relation r => r.tokens

def isWritable : MapEntry → Bool
  | setting s => s.isWritable
  | relation r => r.isWritable

end Grammar.MapEntry

namespace MapDecl

/-- The entries of a map, settings first. -/
def entries (decl : MapDecl) : List MapEntry :=
  decl.settings.map .setting ++ decl.relations.map .relation

end MapDecl

/-! ## Use cases -/

namespace UseCasePart

/-- The entry that a part of a use case is read from. -/
def toEntry : UseCasePart → Entry
  | actor value => .setting .plain ⟨"actor", [.string value], .none⟩
  | secondaryActors values =>
    .setting .plain ⟨"secondaryActors", values.map .string, .none⟩
  | benefit value => .setting .plain ⟨"benefit", [.string value], .none⟩
  | scope value => .setting .plain ⟨"scope", [.string value], .none⟩
  | level value => .setting .plain ⟨"level", [.string value], .none⟩
  | other entry => entry

def ownKeys : List String :=
  ["actor", "secondaryActors", "benefit", "scope", "level"]

def isWritable (part : UseCasePart) : Bool :=
  part.toEntry.isWritable .plain &&
    match part with
    | other (.setting _ setting) => !ownKeys.contains setting.key
    | _ => true

end UseCasePart

/-! ## Documents -/

namespace UnknownDecl

/-- Whether a declaration is read as the mention of another file. -/
def isImport (decl : UnknownDecl) : Bool :=
  decl.keyword = "import" && decl.words.length = 1 && decl.body.isNone

/-- Whether words could be added to a declaration by what comes after it. -/
def isOpen (decl : UnknownDecl) : Bool :=
  decl.body.isNone && !decl.isImport

def bodyPart (decl : UnknownDecl) : List Token :=
  match decl.body with
  | some body => inBraces (bodyTokens body)
  | none => []

def tokens (decl : UnknownDecl) : List Token :=
  .name decl.keyword :: (decl.words.map .string ++ decl.bodyPart)

def isWritable (decl : UnknownDecl) : Bool :=
  !topLevelKeywords.contains decl.keyword &&
    (decl.keyword ≠ "import" || decl.words.isEmpty || decl.isImport) &&
    decl.body.all (isWritableBody .plain)

end UnknownDecl

namespace Element

def tokens : Element → List Token
  | domain decl => .name "Domain" :: .name decl.name :: inBraces (bodyTokens decl.body)
  | context decl =>
    .name "BoundedContext" :: .name decl.name ::
      (decl.clauses.flatMap ContextClause.tokens ++ inBraces (bodyTokens decl.body))
  | map decl =>
    .name "ContextMap" ::
      (decl.name.toList.map .name ++ inBraces (decl.entries.flatMap MapEntry.tokens))
  | useCase decl =>
    .name "UseCase" :: .name decl.name ::
      inBraces (bodyTokens (decl.parts.map UseCasePart.toEntry))
  | unknown decl => decl.tokens

def isWritable : Element → Bool
  | domain decl => isWritableBody .subdomain decl.body
  | context decl => isWritableBody .context decl.body
  | map decl => decl.entries.all MapEntry.isWritable
  | useCase decl => decl.parts.all UseCasePart.isWritable
  | unknown decl => decl.isWritable

/-- Whether an element starts with a keyword that is known. -/
def isKnown : Element → Bool
  | unknown _ => false
  | _ => true

def isOpen : Element → Bool
  | unknown decl => decl.isOpen
  | _ => false

end Element

namespace Document

def tokens (d : Document) : List Token :=
  d.elements.flatMap Element.tokens

/-- Whether every element that is open ends where the next one starts. -/
def isSeparated : List Element → Bool
  | e :: e' :: rest => (!e.isOpen || e'.isKnown) && isSeparated (e' :: rest)
  | _ => true

def isWritable (d : Document) : Bool :=
  d.elements.all Element.isWritable && isSeparated d.elements

end Document

end Landscape
