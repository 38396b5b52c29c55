import Landscape.Build.Draft
import Landscape.Build.Settings
import Landscape.Document.Node

/-!
Registration: the first pass over a document.

Every declaration becomes a thing of the model, with the settings it states and no links yet. Things
get their indices in the order in which they are declared, and what an element was registered as is
noted. A name that is taken already is reported; the new thing is registered all the same.
-/

namespace Landscape

namespace Entry

/-- The names of the groups of a kind among some declarations. -/
def groupName? (kind : GroupKind) : Entry → Option String
  | declaration (.group k name) .. => if k = kind then some name else none
  | _ => none

/-- The name of an entity that an entry declares. -/
def entityName? : Entry → Option String
  | declaration (.object .entity name) .. => some name
  | entity e => some e.name
  | _ => none

end Entry

/-- A subdomain declaration, wherever it is nested. -/
structure SubdomainDecl where
  name : String
  entities : List BareEntity
  body : List Entry
  span : Span

namespace SubdomainDecl

def ofEntry? : Entry → Option SubdomainDecl
  | .declaration (.subdomain name entities) body span => some ⟨name, entities, body, span⟩
  | _ => none

def settings (decl : SubdomainDecl) : Settings :=
  .ofStatements (decl.body.filterMap Entry.subdomainStatement?)

/-- The type of the subdomain. A type that does not exist counts as the default. -/
def type (decl : SubdomainDecl) : SubdomainType :=
  (decl.settings.type.bind fun (literal, _) => SubdomainType.ofLiteral? literal).getD .generic

/-- A type that the subdomain states and that does not exist. -/
def typeFindings (decl : SubdomainDecl) : List Finding :=
  match decl.settings.type with
  | none => []
  | some (literal, span) =>
    if (SubdomainType.ofLiteral? literal).isSome then []
    else [.unknownSubdomainType literal decl.name span]

def toSubdomain (decl : SubdomainDecl) (id : Id .subdomain) (domain : Id .domain) : Subdomain :=
  { id, name := decl.name, type := decl.type, vision := decl.settings.vision,
    entities := decl.body.filterMap Entry.entityName? ++ decl.entities.map BareEntity.name,
    domain, implementations := [] }

end SubdomainDecl

namespace DomainDecl

/-- The subdomains declared in a domain, at any depth. -/
def subdomains (decl : DomainDecl) : List SubdomainDecl :=
  (declarationsOf decl.body).filterMap SubdomainDecl.ofEntry?

def toDomain (decl : DomainDecl) (id : Id .domain) : Domain :=
  let settings := Settings.ofStatements (decl.body.filterMap Entry.domainStatement?)
  { id, name := decl.name, vision := settings.vision, subdomains := [] }

end DomainDecl

namespace ContextDecl

def defaultType : String := "FEATURE"

def defaultState : String := "UNDEFINED"

/-- The names of the groups of a kind declared in a context, at any depth. -/
def groupNames (decl : ContextDecl) (kind : GroupKind) : List String :=
  (declarationsOf decl.body).filterMap (Entry.groupName? kind)

def toContext (decl : ContextDecl) (id : Id .context) : Context :=
  let settings := Settings.ofStatements (decl.body.filterMap Entry.contextStatement?)
  { id, name := decl.name,
    type := (settings.type.map Prod.fst).getD defaultType,
    state := defaultState,
    vision := settings.vision,
    responsibilities := settings.responsibilities.getD [],
    technology := settings.technology,
    knowledgeLevel := settings.knowledgeLevel,
    implements := [],
    aggregates := decl.groupNames .aggregate,
    services := decl.groupNames .service,
    map := none }

end ContextDecl

namespace MapDecl

def defaultType : String := "SYSTEM_LANDSCAPE"

def defaultState : String := "AS_IS"

def toMap (decl : MapDecl) (id : Id .map) : ContextMap :=
  let settings := Settings.ofStatements (decl.settings.filterMap MapSetting.statement?)
  { id, name := decl.name,
    type := (settings.type.map Prod.fst).getD defaultType,
    state := settings.state.getD defaultState,
    contexts := [], relationships := [] }

end MapDecl

namespace UseCaseDecl

/-- A use case after one more part. A later part takes the place of an earlier one. -/
def applyPart (useCase : UseCase) : UseCasePart → UseCase
  | .actor value => { useCase with actor := some value }
  | .secondaryActors values => { useCase with secondaryActors := values }
  | .benefit value => { useCase with benefit := some value }
  | .scope value => { useCase with scope := some value }
  | .level value => { useCase with level := some value }
  | .other _ => useCase

def toUseCase (decl : UseCaseDecl) (id : Id .useCase) : UseCase :=
  decl.parts.foldl applyPart
    { id, name := decl.name, actor := none, secondaryActors := [], benefit := none, scope := none,
      level := none }

end UseCaseDecl

/-- The finding for a name that is taken already. -/
def duplicateFindings (taken : Bool) (kind : Kind) (name : String) (span : Span) : List Finding :=
  if taken then [.duplicateName kind name span] else []

/-- Lets a domain own a subdomain. -/
def Model.addOwned (m : Model) (domain : Id .domain) (subdomain : Id .subdomain) : Model :=
  { m with
    domains := m.domains.modify domain.index fun x =>
      { x with subdomains := x.subdomains ++ [subdomain] } }

namespace Draft

/-- Lets a name stand for a new thing. If it is taken already, that is reported. -/
def enter {kind : Kind} (name : String) (id : Id kind) (span : Span) (draft : Draft) : Draft :=
  let taken := (draft.names.find? kind name).isSome
  let entered : Draft := { draft with names := draft.names.enter name id }
  entered.report (duplicateFindings taken kind name span)

@[simp]
theorem enter_model {kind : Kind} (name : String) (id : Id kind) (span : Span) (draft : Draft) :
    (draft.enter name id span).model = draft.model :=
  rfl

@[simp]
theorem enter_names {kind : Kind} (name : String) (id : Id kind) (span : Span) (draft : Draft) :
    (draft.enter name id span).names = draft.names.enter name id :=
  rfl

def registerSubdomain (domain : Id .domain) (draft : Draft) (decl : SubdomainDecl) : Draft :=
  let m := draft.model
  let id : Id .subdomain := ⟨m.subdomains.length⟩
  let added : Draft :=
    { draft with model := { m with subdomains := m.subdomains ++ [decl.toSubdomain id domain] } }
  (added.report decl.typeFindings).enter decl.name id decl.span

/-- Registers a subdomain, then hands its id to the domain that owns it. -/
def registerOwned (domain : Id .domain) (draft : Draft) (decl : SubdomainDecl) : Draft :=
  let id : Id .subdomain := ⟨draft.model.subdomains.length⟩
  let registered := registerSubdomain domain draft decl
  { registered with model := registered.model.addOwned domain id }

/-- Registers a domain by itself. It owns nothing yet. -/
def addDomain (draft : Draft) (decl : DomainDecl) : Draft :=
  let m := draft.model
  let id : Id .domain := ⟨m.domains.length⟩
  let added : Draft := { draft with model := { m with domains := m.domains ++ [decl.toDomain id] } }
  added.enter decl.name id decl.span

/-- Registers a domain, then the subdomains declared in it. -/
def registerDomain (draft : Draft) (decl : DomainDecl) : Draft :=
  decl.subdomains.foldl (registerOwned ⟨draft.model.domains.length⟩) (draft.addDomain decl)

def registerContext (draft : Draft) (decl : ContextDecl) : Draft :=
  let m := draft.model
  let id : Id .context := ⟨m.contexts.length⟩
  let added : Draft :=
    { draft with model := { m with contexts := m.contexts ++ [decl.toContext id] } }
  added.enter decl.name id decl.span

/-- Registers a context map. One without a name is entered under none. -/
def registerMap (draft : Draft) (decl : MapDecl) : Draft :=
  let m := draft.model
  let id : Id .map := ⟨m.maps.length⟩
  let added : Draft := { draft with model := { m with maps := m.maps ++ [decl.toMap id] } }
  match decl.name with
  | none => added
  | some name => added.enter name id decl.span

def registerUseCase (draft : Draft) (decl : UseCaseDecl) : Draft :=
  let m := draft.model
  let id : Id .useCase := ⟨m.useCases.length⟩
  let added : Draft :=
    { draft with model := { m with useCases := m.useCases ++ [decl.toUseCase id] } }
  added.enter decl.name id decl.span

/-- Notes what the next element was registered as. -/
def note (draft : Draft) (registration : Registration) : Draft :=
  { draft with registered := draft.registered ++ [registration] }

@[simp]
theorem note_model (draft : Draft) (registration : Registration) :
    (draft.note registration).model = draft.model :=
  rfl

@[simp]
theorem note_names (draft : Draft) (registration : Registration) :
    (draft.note registration).names = draft.names :=
  rfl

@[simp]
theorem note_findings (draft : Draft) (registration : Registration) :
    (draft.note registration).findings = draft.findings :=
  rfl

/-- Registers an element. It gets the first id of its kind that is free. -/
def register (draft : Draft) : Element → Draft
  | .domain decl => (draft.registerDomain decl).note (.domain ⟨draft.model.domains.length⟩)
  | .context decl => (draft.registerContext decl).note (.context ⟨draft.model.contexts.length⟩)
  | .map decl => (draft.registerMap decl).note (.map ⟨draft.model.maps.length⟩)
  | .useCase decl => (draft.registerUseCase decl).note (.useCase ⟨draft.model.useCases.length⟩)
  | .unknown _ => draft.note .skipped

end Draft

/-- The draft after the first pass. -/
def Document.register (policy : Policy) (d : Document) : Draft :=
  d.elements.foldl Draft.register (Draft.empty policy)

end Landscape
