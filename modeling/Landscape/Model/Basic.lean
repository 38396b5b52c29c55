/-!
The model: domains, contexts and the map between them, with all names resolved.

There is one list for each kind of thing, and things point at each other by their index in these
lists. A model that was built from a document is closed: each thing is at the index that it carries,
and every index that it mentions is taken.
-/

namespace Landscape

/-- The kinds of thing in a model that can be pointed at. -/
inductive Kind
  | domain
  | subdomain
  | context
  | map
  | useCase
deriving Repr, DecidableEq

namespace Kind

/-- The kind as a message names it. -/
def noun : Kind → String
  | domain => "domain"
  | subdomain => "subdomain"
  | context => "bounded context"
  | map => "context map"
  | useCase => "use case"

/-- The kind as it is written in front of an index. -/
def idLabel : Kind → String
  | domain => "DomainId"
  | subdomain => "SubdomainId"
  | context => "ContextId"
  | map => "ContextMapId"
  | useCase => "UseCaseId"

end Kind

/-- The index of a thing in the list of its kind. -/
structure Id (kind : Kind) where
  index : Nat
deriving Repr, DecidableEq

namespace Id

def render {kind : Kind} (id : Id kind) : String :=
  kind.idLabel ++ "#" ++ toString id.index

end Id

/-- How much a subdomain matters to the business. -/
inductive SubdomainType
  | core
  | supporting
  | generic
deriving Repr, DecidableEq

namespace SubdomainType

def literal : SubdomainType → String
  | core => "CORE_DOMAIN"
  | supporting => "SUPPORTING_DOMAIN"
  | generic => "GENERIC_SUBDOMAIN"

def ofLiteral? : String → Option SubdomainType
  | "CORE_DOMAIN" => some core
  | "SUPPORTING_DOMAIN" => some supporting
  | "GENERIC_SUBDOMAIN" => some generic
  | _ => none

theorem ofLiteral?_literal (t : SubdomainType) : ofLiteral? t.literal = some t := by
  cases t <;> rfl

end SubdomainType

structure Domain where
  id : Id .domain
  name : String
  vision : Option String
  subdomains : List (Id .subdomain)
deriving Repr, DecidableEq

structure Subdomain where
  id : Id .subdomain
  name : String
  type : SubdomainType
  vision : Option String
  entities : List String
  domain : Id .domain
  implementations : List (Id .context)
deriving Repr, DecidableEq

/-- A bounded context. -/
structure Context where
  id : Id .context
  name : String
  type : String
  state : String
  vision : Option String
  responsibilities : List String
  technology : Option String
  knowledgeLevel : Option String
  implements : List (Id .subdomain)
  aggregates : List String
  services : List String
  map : Option (Id .map)
deriving Repr, DecidableEq

/-- A relationship between two contexts. -/
structure Relationship where
  left : Id .context
  right : Id .context
  label : String
  roles : List String
  name : Option String
  technology : Option String
deriving Repr, DecidableEq

namespace Relationship

/-- Whether the relationship is between these two contexts, in either direction. -/
def connects (r : Relationship) (a b : Id .context) : Bool :=
  (r.left = a && r.right = b) || (r.left = b && r.right = a)

def involves (r : Relationship) (c : Id .context) : Bool :=
  r.left = c || r.right = c

def hasRole (r : Relationship) (role : String) : Bool :=
  r.roles.contains role

end Relationship

/-- A context map. Its contexts are listed in the order in which they joined. -/
structure ContextMap where
  id : Id .map
  name : Option String
  type : String
  state : String
  contexts : List (Id .context)
  relationships : List Relationship
deriving Repr, DecidableEq

structure UseCase where
  id : Id .useCase
  name : String
  actor : Option String
  secondaryActors : List String
  benefit : Option String
  scope : Option String
  level : Option String
deriving Repr, DecidableEq

structure Model where
  domains : List Domain
  subdomains : List Subdomain
  contexts : List Context
  maps : List ContextMap
  useCases : List UseCase
deriving Repr, DecidableEq

namespace Model

def empty : Model :=
  ⟨[], [], [], [], []⟩

/-- Whether nothing was declared. Subdomains come only with their domain. -/
def isEmpty (m : Model) : Bool :=
  m.domains.isEmpty && m.contexts.isEmpty && m.maps.isEmpty && m.useCases.isEmpty

end Model

end Landscape
