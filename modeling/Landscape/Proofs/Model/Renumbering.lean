import Landscape.Model.Lookup

/-!
# Models under other numbers

Ids are handed out in the order of declaration, so with another order the same
things have other ids. A renumbering says which. What a model says apart from
its numbers is what it has in common with its renumbered versions
(`Model.Renumbered`), and two of its parts are not in common: the contexts that
implement a subdomain are listed in the order of their ids, and a context that
is a member of several maps points at the last one.
-/

namespace Landscape

/-- A new id for each old one. -/
abbrev Renumbering :=
  (kind : Kind) → Id kind → Id kind

variable (ρ : Renumbering)

def Domain.renumber (d : Domain) : Domain :=
  { d with id := ρ .domain d.id, subdomains := d.subdomains.map (ρ .subdomain) }

def Subdomain.renumber (s : Subdomain) : Subdomain :=
  { s with
    id := ρ .subdomain s.id
    domain := ρ .domain s.domain
    implementations := s.implementations.map (ρ .context) }

def Context.renumber (c : Context) : Context :=
  { c with
    id := ρ .context c.id
    implements := c.implements.map (ρ .subdomain)
    map := c.map.map (ρ .map) }

def Relationship.renumber (r : Relationship) : Relationship :=
  { r with left := ρ .context r.left, right := ρ .context r.right }

def ContextMap.renumber (x : ContextMap) : ContextMap :=
  { x with
    id := ρ .map x.id
    contexts := x.contexts.map (ρ .context)
    relationships := x.relationships.map (Relationship.renumber ρ) }

def UseCase.renumber (u : UseCase) : UseCase :=
  { u with id := ρ .useCase u.id }

namespace Model

/-- How many things of a kind there are. -/
def size (m : Model) : Kind → Nat
  | .domain => m.domains.length
  | .subdomain => m.subdomains.length
  | .context => m.contexts.length
  | .map => m.maps.length
  | .useCase => m.useCases.length

/-- Whether the second model is the first one under other numbers. Everything a
thing carries is renumbered and otherwise the same, in the same order, up to the
order of the contexts that implement a subdomain and the map of a context that
is a member of more than one. -/
structure Renumbered (m m' : Model) : Prop where
  injective : ∀ kind, Function.Injective (ρ kind)
  size_eq : ∀ kind, m'.size kind = m.size kind
  domains : ∀ d ∈ m.domains, m'.domain (ρ .domain d.id) = .ok (d.renumber ρ)
  subdomains : ∀ s ∈ m.subdomains, ∃ implementations,
    m'.subdomain (ρ .subdomain s.id) = .ok { s.renumber ρ with implementations } ∧
      implementations.Perm (s.renumber ρ).implementations
  contexts : ∀ c ∈ m.contexts, ∃ map,
    m'.context (ρ .context c.id) = .ok { c.renumber ρ with map } ∧
      ((∀ x ∈ m.maps, ∀ y ∈ m.maps, c.id ∈ x.contexts → c.id ∈ y.contexts → x = y) →
        map = (c.renumber ρ).map)
  maps : ∀ x ∈ m.maps, m'.map (ρ .map x.id) = .ok (x.renumber ρ)
  useCases : ∀ u ∈ m.useCases, m'.useCase (ρ .useCase u.id) = .ok (u.renumber ρ)

end Model

end Landscape
