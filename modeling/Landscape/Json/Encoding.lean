import Landscape.Json.Basic
import Landscape.Outcome

/-!
The JSON form of models, diagnostics and outcomes.

Indices are written as plain numbers, absent values as null.
-/

namespace Landscape

open Json

def Id.toJson {kind : Kind} (id : Id kind) : Json :=
  ofNat id.index

def Policy.toJson (policy : Policy) : Json :=
  object [
    ("references", string policy.references.name),
    ("duplicates", string policy.duplicates.name)]

def Diagnostic.toJson (d : Diagnostic) : Json :=
  object [
    ("message", string d.message),
    ("severity", string d.severity.name),
    ("code", ofOption string d.code),
    ("line", ofOption ofNat d.line),
    ("col", ofOption ofNat d.column),
    ("filename", ofOption string d.filename),
    ("expected", ofOption strings d.expected),
    ("context", ofOption string d.context)]

/-- Something that has nothing but a name. -/
def namedJson (name : String) : Json :=
  object [("name", string name)]

def Domain.toJson (d : Domain) : Json :=
  object [
    ("id", d.id.toJson),
    ("name", string d.name),
    ("vision", ofOption string d.vision),
    ("subdomains", ofList Id.toJson d.subdomains)]

def Subdomain.toJson (s : Subdomain) : Json :=
  object [
    ("id", s.id.toJson),
    ("name", string s.name),
    ("type", string s.type.literal),
    ("vision", ofOption string s.vision),
    ("entities", ofList namedJson s.entities),
    ("domain", s.domain.toJson),
    ("implementations", ofList Id.toJson s.implementations)]

def Context.toJson (c : Context) : Json :=
  object [
    ("id", c.id.toJson),
    ("name", string c.name),
    ("type", string c.type),
    ("state", string c.state),
    ("vision", ofOption string c.vision),
    ("responsibilities", strings c.responsibilities),
    ("implementation_technology", ofOption string c.technology),
    ("knowledge_level", ofOption string c.knowledgeLevel),
    ("implements", ofList Id.toJson c.implements),
    ("aggregates", ofList namedJson c.aggregates),
    ("services", ofList namedJson c.services),
    ("context_map", ofOption Id.toJson c.map)]

def Relationship.toJson (r : Relationship) : Json :=
  object [
    ("left", r.left.toJson),
    ("right", r.right.toJson),
    ("type", string r.label),
    ("roles", strings r.roles),
    ("name", ofOption string r.name),
    ("implementation_technology", ofOption string r.technology)]

def ContextMap.toJson (m : ContextMap) : Json :=
  object [
    ("id", m.id.toJson),
    ("name", ofOption string m.name),
    ("type", string m.type),
    ("state", string m.state),
    ("contexts", ofList Id.toJson m.contexts),
    ("relationships", ofList Relationship.toJson m.relationships)]

def UseCase.toJson (u : UseCase) : Json :=
  object [
    ("id", u.id.toJson),
    ("name", string u.name),
    ("actor", ofOption string u.actor),
    ("secondary_actors", strings u.secondaryActors),
    ("benefit", ofOption string u.benefit),
    ("scope", ofOption string u.scope),
    ("level", ofOption string u.level)]

def Model.toJson (m : Model) : Json :=
  object [
    ("domains", ofList Domain.toJson m.domains),
    ("subdomains", ofList Subdomain.toJson m.subdomains),
    ("contexts", ofList Context.toJson m.contexts),
    ("context_maps", ofList ContextMap.toJson m.maps),
    ("use_cases", ofList UseCase.toJson m.useCases)]

namespace Outcome

def toJson (o : Outcome) : Json :=
  object [
    ("model", ofOption Model.toJson o.model),
    ("errors", ofList Diagnostic.toJson o.errors),
    ("warnings", ofList Diagnostic.toJson o.warnings),
    ("source", ofOption string o.source),
    ("filename", ofOption string o.filename)]

/-- The outcome without the model and the source. -/
def summaryJson (o : Outcome) : Json :=
  object [
    ("ok", bool o.isOk),
    ("errors", ofList Diagnostic.toJson o.errors),
    ("warnings", ofList Diagnostic.toJson o.warnings),
    ("filename", ofOption string o.filename)]

end Outcome

end Landscape
