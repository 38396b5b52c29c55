import Landscape.Model.Lookup
import Landscape.Text.AsciiCase

/-!
Walking through a model along its links.

Each function follows the indices that one thing holds. In a closed model every one of them leads
somewhere; one that did not would simply be passed over. Where a name is looked up among linked
things the first match counts.
-/

namespace Landscape

open Text

namespace Subdomain

def entity? (s : Subdomain) (name : String) : Option String :=
  s.entities.find? (· = name)

end Subdomain

namespace Context

def aggregate? (c : Context) (name : String) : Option String :=
  c.aggregates.find? (· = name)

def service? (c : Context) (name : String) : Option String :=
  c.services.find? (· = name)

end Context

namespace ContextMap

/-- The relationships whose label or one of whose roles is the given text, ASCII case aside. -/
def relationshipsLabelled (map : ContextMap) (label : String) : List Relationship :=
  map.relationships.filter fun r =>
    eqIgnoringAsciiCase r.label label || r.roles.any (eqIgnoringAsciiCase · label)

end ContextMap

namespace Model

variable (m : Model)

def subdomainsOf (d : Domain) : List Subdomain :=
  d.subdomains.filterMap fun id => m.subdomains[id.index]?

def subdomainsOfType (d : Domain) (type : SubdomainType) : List Subdomain :=
  (m.subdomainsOf d).filter (·.type = type)

def subdomainOf? (d : Domain) (name : String) : Option Subdomain :=
  (m.subdomainsOf d).find? (·.name = name)

def domainOf? (s : Subdomain) : Option Domain :=
  m.domains[s.domain.index]?

/-- The contexts that implement a subdomain. -/
def implementationsOf (s : Subdomain) : List Context :=
  s.implementations.filterMap fun id => m.contexts[id.index]?

def implementationOf? (s : Subdomain) (name : String) : Option Context :=
  (m.implementationsOf s).find? (·.name = name)

/-- The subdomains that a context implements. -/
def implementedBy (c : Context) : List Subdomain :=
  c.implements.filterMap fun id => m.subdomains[id.index]?

def implementedBy? (c : Context) (name : String) : Option Subdomain :=
  (m.implementedBy c).find? (·.name = name)

/-- The map that a context joined last. -/
def mapOf? (c : Context) : Option ContextMap :=
  c.map.bind fun id => m.maps[id.index]?

def membersOf (map : ContextMap) : List Context :=
  map.contexts.filterMap fun id => m.contexts[id.index]?

def memberOf? (map : ContextMap) (name : String) : Option Context :=
  (m.membersOf map).find? (·.name = name)

def leftOf? (r : Relationship) : Option Context :=
  m.contexts[r.left.index]?

def rightOf? (r : Relationship) : Option Context :=
  m.contexts[r.right.index]?

/-- Whether the left side of a relationship has a name. -/
def isLeftNamed (r : Relationship) (name : String) : Bool :=
  (m.leftOf? r).any (·.name = name)

/-- Whether the right side of a relationship has a name. -/
def isRightNamed (r : Relationship) (name : String) : Bool :=
  (m.rightOf? r).any (·.name = name)

/-- The relationships of a map with a context of the name on either side. -/
def relationshipsOf (map : ContextMap) (name : String) : List Relationship :=
  map.relationships.filter fun r => m.isLeftNamed r name || m.isRightNamed r name

/-- The first relationship of a map between contexts of these names, in either direction. -/
def relationshipBetween? (map : ContextMap) (a b : String) : Option Relationship :=
  map.relationships.find? fun r =>
    (m.isLeftNamed r a && m.isRightNamed r b) || (m.isLeftNamed r b && m.isRightNamed r a)

end Model

end Landscape
