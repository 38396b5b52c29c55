import Landscape.Document.Basic

/-!
Nodes: a document as a tree of declarations.

Everything that is declared is a node, at any depth; settings are not. The nodes below a node are
listed in the order a reader meets them, each before what is nested in it.
-/

namespace Landscape

namespace Entry

def isSetting : Entry → Bool
  | setting .. => true
  | _ => false

end Entry

namespace Heading

/-- Entities that belong to the heading itself. They come after the body. -/
def ownEntities : Heading → List Entry
  | subdomain _ entities => entities.map Entry.entity
  | _ => []

end Heading

mutual

/-- An entry and the declarations below it. A setting is no declaration. -/
def Entry.declarations : Entry → List Entry
  | .setting .. => []
  | .entity entity => [.entity entity]
  | .unknownLine keyword words span => [.unknownLine keyword words span]
  | .declaration heading body span =>
    .declaration heading body span :: (declarationsOf body ++ heading.ownEntities)

/-- The declarations in a body, at any depth. -/
def declarationsOf : List Entry → List Entry
  | [] => []
  | entry :: rest => entry.declarations ++ declarationsOf rest

end

namespace UseCasePart

def entry? : UseCasePart → Option Entry
  | other entry => some entry
  | _ => none

end UseCasePart

namespace Element

/-- The entries of a declaration that may hold further declarations. -/
def body : Element → List Entry
  | domain decl => decl.body
  | context decl => decl.body
  | map _ => []
  | useCase decl => decl.parts.filterMap UseCasePart.entry?
  | unknown decl => decl.body.getD []

end Element

/-- The kinds of node. -/
inductive NodeKind
  | document
  | domain
  | subdomain
  | context
  | map
  | useCase
  | group (kind : GroupKind)
  | object
  | entity
  | unknown
deriving Repr, DecidableEq

/-- A node of a document. The entry of a node is never a setting. -/
inductive Node
  | document (document : Document)
  | element (element : Element)
  | entry (entry : Entry)
deriving Repr

namespace Node

def kind : Node → NodeKind
  | document _ => .document
  | element (.domain _) => .domain
  | element (.context _) => .context
  | element (.map _) => .map
  | element (.useCase _) => .useCase
  | element (.unknown _) => .unknown
  | entry (.declaration (.subdomain ..) ..) => .subdomain
  | entry (.declaration (.object ..) ..) => .object
  | entry (.declaration (.group kind _) ..) => .group kind
  | entry (.declaration (.unknown ..) ..) => .unknown
  | entry (.entity _) => .entity
  | entry (.unknownLine ..) => .unknown
  | entry (.setting ..) => .unknown

/-- The declared name, for those nodes that have one. -/
def name? : Node → Option String
  | document _ => none
  | element (.domain decl) => some decl.name
  | element (.context decl) => some decl.name
  | element (.map decl) => decl.name
  | element (.useCase decl) => some decl.name
  | element (.unknown _) => none
  | entry (.declaration (.subdomain name _) ..) => some name
  | entry (.declaration (.object _ name) ..) => some name
  | entry (.declaration (.group _ name) ..) => some name
  | entry (.declaration (.unknown ..) ..) => none
  | entry (.entity entity) => some entity.name
  | entry (.unknownLine ..) => none
  | entry (.setting ..) => none

/-- The nodes right below a node. -/
def children : Node → List Node
  | document d => d.elements.map element
  | element e => (e.body.filter (!·.isSetting)).map entry
  | entry (.declaration heading body _) =>
    (body.filter (!·.isSetting) ++ heading.ownEntities).map entry
  | entry _ => []

/-- The nodes below an element, at any depth. -/
def belowElement (e : Element) : List Node :=
  (declarationsOf e.body).map entry

/-- The nodes below a node, at any depth. -/
def descendants : Node → List Node
  | document d => d.elements.flatMap fun e => element e :: belowElement e
  | element e => belowElement e
  | entry e => (e.declarations.drop 1).map entry

end Node

end Landscape
