import Landscape.Build.Registration
import Landscape.Relation.Classification

/-!
Linking: the second pass over a document.

The names that contexts and context maps mention are looked up among the things registered by the
first pass, so a mention may come before the declaration. What is found is linked in both
directions; what is not found is reported, and leaves no trace in the model.
-/

namespace Landscape

namespace Model

/-- Links a context with a subdomain that it implements. -/
def addImplementation (m : Model) (context : Id .context) (subdomain : Id .subdomain) : Model :=
  { m with
    contexts := m.contexts.modify context.index fun c =>
      { c with implements := OrderedSet.insert subdomain c.implements }
    subdomains := m.subdomains.modify subdomain.index fun s =>
      { s with implementations := OrderedSet.insert context s.implementations } }

/-- Lets a context join a map. The map that a context joins last is the one it belongs to. -/
def addMember (m : Model) (map : Id .map) (context : Id .context) : Model :=
  { m with
    maps := m.maps.modify map.index fun x =>
      { x with contexts := OrderedSet.insert context x.contexts }
    contexts := m.contexts.modify context.index fun c => { c with map := some map } }

/-- Adds a relationship to a map, which both of its sides join. -/
def addRelationship (m : Model) (map : Id .map) (r : Relationship) : Model :=
  let joined := (m.addMember map r.left).addMember map r.right
  { joined with
    maps := joined.maps.modify map.index fun x =>
      { x with relationships := x.relationships ++ [r] } }

end Model

/-- The relationship that a declaration describes, between two contexts that were found. -/
def RelationDecl.toRelationship (decl : RelationDecl) (left right : Id .context) : Relationship :=
  { left, right, label := decl.label, roles := decl.roles, name := decl.name,
    technology := decl.technology? }

namespace Draft

def subdomainId? (draft : Draft) (name : String) : Option (Id .subdomain) :=
  draft.names.find? .subdomain name

def contextId? (draft : Draft) (name : String) : Option (Id .context) :=
  draft.names.find? .context name

def linkImplementation (context : Id .context) (owner : Owner) (draft : Draft)
    (reference : Reference) : Draft :=
  match draft.subdomainId? reference.name with
  | some subdomain => { draft with model := draft.model.addImplementation context subdomain }
  | none => draft.report [.unresolved .implementation reference.name owner reference.span]

def linkContext (context : Id .context) (draft : Draft) (decl : ContextDecl) : Draft :=
  decl.implements.foldl (linkImplementation context (.context decl.name)) draft

def linkMember (map : Id .map) (owner : Owner) (draft : Draft) (reference : Reference) : Draft :=
  match draft.contextId? reference.name with
  | some context => { draft with model := draft.model.addMember map context }
  | none => draft.report [.unresolved .membership reference.name owner reference.span]

/-- The finding for an endpoint that names no context. -/
def endpointFindings (draft : Draft) (owner : Owner) (endpoint : Endpoint) : List Finding :=
  if (draft.contextId? endpoint.name).isSome then []
  else [.unresolved .endpoint endpoint.name owner endpoint.span]

def linkRelation (map : Id .map) (owner : Owner) (draft : Draft) (decl : RelationDecl) : Draft :=
  match draft.contextId? decl.left.name, draft.contextId? decl.right.name with
  | some left, some right =>
    { draft with model := draft.model.addRelationship map (decl.toRelationship left right) }
  | _, _ =>
    draft.report
      (draft.endpointFindings owner decl.left ++ draft.endpointFindings owner decl.right)

/-- Links a map: first all contexts that it contains, then its relationships. -/
def linkMap (map : Id .map) (draft : Draft) (decl : MapDecl) : Draft :=
  let owner := Owner.map decl.name
  let members := decl.settings.flatMap fun
    | .contains references => references
    | _ => []
  decl.relations.foldl (linkRelation map owner) (members.foldl (linkMember map owner) draft)

/-- Links an element, which need not be the only one of its name: it is the thing that it was
registered as that is linked. -/
def linkElement (draft : Draft) : Element × Registration → Draft
  | (.context decl, .context id) => draft.linkContext id decl
  | (.map decl, .map id) => draft.linkMap id decl
  | _ => draft

end Draft

/-- The draft after both passes. -/
def Document.draft (policy : Policy) (d : Document) : Draft :=
  let first := d.register policy
  (d.elements.zip first.registered).foldl Draft.linkElement first

end Landscape
