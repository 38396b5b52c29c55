import Landscape.Check.Mismatch
import Landscape.Model.Navigation

/-!
Checks: expectations on a model, as data.

A check says what a model should hold, naming things and going on with checks on them. Running a
list of checks gives the first mismatch, or nothing if the model is as expected.
-/

namespace Landscape

inductive SubdomainCheck
  | type (expected : SubdomainType)
  | vision (expected : Option String)
  | entities (expected : List String)
  | domain (expected : String)
  | implementations (expected : List String)

inductive DomainCheck
  | vision (expected : Option String)
  | subdomains (expected : List String)
  | subdomain (name : String) (checks : List SubdomainCheck)

inductive ContextCheck
  | type (expected : String)
  | state (expected : String)
  | vision (expected : Option String)
  | responsibilities (expected : List String)
  | technology (expected : Option String)
  | knowledgeLevel (expected : Option String)
  | implements (expected : List String)
  | aggregates (expected : List String)
  | services (expected : List String)
  | map (expected : Option String)

inductive RelationCheck
  | endpoints (left right : String)
  | label (expected : String)
  | roles (expected : List String)
  | name (expected : Option String)
  | technology (expected : Option String)

inductive MapCheck
  | type (expected : String)
  | state (expected : String)
  | contexts (expected : List String)
  | relationshipCount (expected : Nat)
  | relationship (left right : String) (checks : List RelationCheck)
  | relationshipAt (index : Nat) (checks : List RelationCheck)

inductive UseCaseCheck
  | actor (expected : Option String)
  | secondaryActors (expected : List String)
  | benefit (expected : Option String)
  | scope (expected : Option String)
  | level (expected : Option String)

inductive ModelCheck
  | domainCount (expected : Nat)
  | subdomainCount (expected : Nat)
  | contextCount (expected : Nat)
  | mapCount (expected : Nat)
  | useCaseCount (expected : Nat)
  | domain (name : String) (checks : List DomainCheck)
  | subdomain (name : String) (checks : List SubdomainCheck)
  | context (name : String) (checks : List ContextCheck)
  | noContext (name : String)
  | map (name : String) (checks : List MapCheck)
  | mapAt (index : Nat) (checks : List MapCheck)
  | useCase (name : String) (checks : List UseCaseCheck)

/-- The way to a thing of a kind, from the place before it. -/
def stepTo (place kind name : String) : String :=
  place ++ ":" ++ kind ++ "[" ++ name ++ "]"

namespace SubdomainCheck

def run (m : Model) (place : String) (s : Subdomain) : SubdomainCheck → Option Mismatch
  | type expected => Mismatch.ofValue place "type" SubdomainType.literal expected s.type
  | vision expected => Mismatch.ofOption place "vision" expected s.vision
  | entities expected => Mismatch.ofList place "entities" expected s.entities
  | domain expected =>
    Mismatch.ofText place "parent domain" expected (((m.domainOf? s).map Domain.name).getD "")
  | implementations expected =>
    Mismatch.ofList place "implementations" expected ((m.implementationsOf s).map Context.name)

end SubdomainCheck

namespace DomainCheck

def run (m : Model) (place : String) (d : Domain) : DomainCheck → Option Mismatch
  | vision expected => Mismatch.ofOption place "vision" expected d.vision
  | subdomains expected =>
    Mismatch.ofList place "subdomains" expected ((m.subdomainsOf d).map Subdomain.name)
  | subdomain name checks =>
    match m.subdomainOf? d name with
    | none => some ⟨place, .missing "subdomain" name⟩
    | some s => checks.findSome? (SubdomainCheck.run m (stepTo place "subdomain" name) s)

end DomainCheck

namespace ContextCheck

def run (m : Model) (place : String) (c : Context) : ContextCheck → Option Mismatch
  | type expected => Mismatch.ofText place "type" expected c.type
  | state expected => Mismatch.ofText place "state" expected c.state
  | vision expected => Mismatch.ofOption place "vision" expected c.vision
  | responsibilities expected =>
    Mismatch.ofList place "responsibilities" expected c.responsibilities
  | technology expected => Mismatch.ofOption place "implementation technology" expected c.technology
  | knowledgeLevel expected => Mismatch.ofOption place "knowledge level" expected c.knowledgeLevel
  | implements expected =>
    Mismatch.ofList place "implemented subdomains" expected ((m.implementedBy c).map Subdomain.name)
  | aggregates expected => Mismatch.ofList place "aggregates" expected c.aggregates
  | services expected => Mismatch.ofList place "services" expected c.services
  | map expected =>
    Mismatch.ofOption place "context map" expected ((m.mapOf? c).bind ContextMap.name)

end ContextCheck

namespace RelationCheck

/-- The names of both sides. -/
def endpointNames (m : Model) (r : Relationship) : String × String :=
  (((m.leftOf? r).map Context.name).getD "", ((m.rightOf? r).map Context.name).getD "")

def run (m : Model) (place : String) (r : Relationship) : RelationCheck → Option Mismatch
  | endpoints left right =>
    let actual := endpointNames m r
    if actual = (left, right) then
      none
    else
      let shown := "(" ++ Text.literal actual.1 ++ ", " ++ Text.literal actual.2 ++ ")"
      some ⟨place, .value "endpoints" ("(" ++ left ++ ", " ++ right ++ ")") shown⟩
  | label expected => Mismatch.ofText place "type" expected r.label
  | roles expected => Mismatch.ofList place "roles" expected r.roles
  | name expected => Mismatch.ofOption place "name" expected r.name
  | technology expected => Mismatch.ofOption place "implementation technology" expected r.technology

end RelationCheck

namespace MapCheck

def run (m : Model) (place : String) (x : ContextMap) : MapCheck → Option Mismatch
  | type expected => Mismatch.ofText place "type" expected x.type
  | state expected => Mismatch.ofText place "state" expected x.state
  | contexts expected =>
    Mismatch.ofList place "member contexts" expected ((m.membersOf x).map Context.name)
  | relationshipCount expected =>
    Mismatch.ofCount place "relationships" expected x.relationships.length
  | relationship left right checks =>
    match m.relationshipBetween? x left right with
    | none => some ⟨place, .unrelated left right⟩
    | some r =>
      checks.findSome? (RelationCheck.run m (stepTo place "relationship" (left ++ "," ++ right)) r)
  | relationshipAt index checks =>
    match x.relationships[index]? with
    | none => some ⟨place, .beyond "Relationship" index "relationships" x.relationships.length⟩
    | some r =>
      checks.findSome? (RelationCheck.run m (stepTo place "relationships" (toString index)) r)

end MapCheck

namespace UseCaseCheck

def run (place : String) (u : UseCase) : UseCaseCheck → Option Mismatch
  | actor expected => Mismatch.ofOption place "actor" expected u.actor
  | secondaryActors expected => Mismatch.ofList place "secondary actors" expected u.secondaryActors
  | benefit expected => Mismatch.ofOption place "benefit" expected u.benefit
  | scope expected => Mismatch.ofOption place "scope" expected u.scope
  | level expected => Mismatch.ofOption place "level" expected u.level

end UseCaseCheck

namespace ModelCheck

/-- The place where every check starts. -/
def root : String := "model"

def run (m : Model) : ModelCheck → Option Mismatch
  | domainCount expected => Mismatch.ofCount root "domains" expected m.domains.length
  | subdomainCount expected => Mismatch.ofCount root "subdomains" expected m.subdomains.length
  | contextCount expected => Mismatch.ofCount root "bounded contexts" expected m.contexts.length
  | mapCount expected => Mismatch.ofCount root "context maps" expected m.maps.length
  | useCaseCount expected => Mismatch.ofCount root "use cases" expected m.useCases.length
  | domain name checks =>
    match m.domainNamed? name with
    | none => some ⟨root, .missing Kind.domain.noun name⟩
    | some d => checks.findSome? (DomainCheck.run m (stepTo root "domain" name) d)
  | subdomain name checks =>
    match m.subdomainNamed? name with
    | none => some ⟨root, .missing Kind.subdomain.noun name⟩
    | some s => checks.findSome? (SubdomainCheck.run m (stepTo root "subdomain" name) s)
  | context name checks =>
    match m.contextNamed? name with
    | none => some ⟨root, .missing Kind.context.noun name⟩
    | some c => checks.findSome? (ContextCheck.run m (stepTo root "context" name) c)
  | noContext name =>
    if (m.contextNamed? name).isSome then some ⟨root, .present Kind.context.noun name⟩ else none
  | map name checks =>
    match m.mapNamed? name with
    | none => some ⟨root, .missing Kind.map.noun name⟩
    | some x => checks.findSome? (MapCheck.run m (stepTo root "context_map" name) x)
  | mapAt index checks =>
    match m.maps[index]? with
    | none => some ⟨root, .beyond "Context map" index "maps" m.maps.length⟩
    | some x => checks.findSome? (MapCheck.run m (stepTo root "context_maps" (toString index)) x)
  | useCase name checks =>
    match m.useCaseNamed? name with
    | none => some ⟨root, .missing Kind.useCase.noun name⟩
    | some u => checks.findSome? (UseCaseCheck.run (stepTo root "use_case" name) u)

end ModelCheck

/-- The first mismatch between a model and the checks on it. -/
def Model.firstMismatch? (m : Model) (checks : List ModelCheck) : Option Mismatch :=
  checks.findSome? (ModelCheck.run m)

end Landscape
