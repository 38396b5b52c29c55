import Landscape.Reading

/-!
Samples: small documents that show the language, one of them with an error.

Each is known to read the way its description says.
-/

namespace Landscape

inductive Sample
  /-- A whole landscape: a domain, three contexts, a map with roles and a use case. -/
  | insurance
  /-- A map with every way of stating the kind of a relationship. -/
  | relationships
  /-- Two domains, in which one subdomain has a type that is none. -/
  | domains
  /-- Use cases and nothing else. -/
  | useCases
  /-- A map that does not end. -/
  | unterminatedMap
deriving Repr, DecidableEq

namespace Sample

def all : List Sample :=
  [insurance, relationships, domains, useCases, unterminatedMap]

/-- The name of the sample's file below the directory of samples. -/
def fileName : Sample → String
  | insurance => "insurance.cml"
  | relationships => "relationships.cml"
  | domains => "domains.cml"
  | useCases => "use-cases.cml"
  | unterminatedMap => "invalid/unterminated-map.cml"

def directory : String := "samples"

def path (s : Sample) : String :=
  directory ++ "/" ++ s.fileName

/-- Whether the sample is without errors. -/
def isValid (s : Sample) : Bool :=
  s ≠ unterminatedMap

/-! ## The texts, line by line -/

def insuranceLines : List String :=
  [
    "/* Insurance landscape: domains, contexts, a map and a use case */",
    "",
    "Domain InsuranceDomain \x7b",
    "    domainVisionStatement = \"Insure people against the unexpected\"",
    "",
    "    Subdomain CustomerManagement \x7b",
    "        type = CORE_DOMAIN",
    "        domainVisionStatement = \"Know every customer\"",
    "        Entity Customer \x7b",
    "            String firstName",
    "            String lastName",
    "            - List<Address> addresses",
    "        \x7d",
    "        Entity Address",
    "    \x7d",
    "",
    "    Subdomain PolicyManagement \x7b",
    "        type = SUPPORTING_DOMAIN",
    "        Entity Policy",
    "        ValueObject PolicyNumber",
    "    \x7d",
    "",
    "    Subdomain Printing \x7b",
    "        type = GENERIC_SUBDOMAIN",
    "    \x7d",
    "\x7d",
    "",
    "BoundedContext CustomerContext implements CustomerManagement \x7b",
    "    type = FEATURE",
    "    domainVisionStatement = \"Manage customers and their addresses\"",
    "    responsibilities = \"Customers\", \"Addresses\"",
    "    implementationTechnology = \"Java, Spring\"",
    "    knowledgeLevel = CONCRETE",
    "",
    "    Module customers \x7b",
    "        Aggregate Customers \x7b",
    "            Entity Customer \x7b",
    "                aggregateRoot",
    "                String firstName",
    "            \x7d",
    "            Service CustomerService \x7b",
    "                void register(@Customer customer);",
    "            \x7d",
    "        \x7d",
    "    \x7d",
    "\x7d",
    "",
    "BoundedContext PolicyContext implements PolicyManagement, Printing \x7b",
    "    type = SYSTEM",
    "    Aggregate Policies \x7b",
    "        Entity Policy \x7b aggregateRoot \x7d",
    "    \x7d",
    "    Service PolicyPrinting",
    "\x7d",
    "",
    "BoundedContext RiskContext",
    "",
    "ContextMap InsuranceMap \x7b",
    "    type = SYSTEM_LANDSCAPE",
    "    state = TO_BE",
    "    contains CustomerContext, PolicyContext",
    "    contains RiskContext",
    "",
    "    CustomerContext [U,OHS,PL]->[D,ACL] PolicyContext : CustomerData \x7b",
    "        implementationTechnology = \"RESTful HTTP\"",
    "        exposedAggregates = Customers",
    "    \x7d",
    "",
    "    PolicyContext [P]<->[P] RiskContext",
    "\x7d",
    "",
    "UseCase ClaimSubmission \x7b",
    "    actor = \"Customer\"",
    "    secondaryActors = \"Clerk\", \"Assessor\"",
    "    interactions = create a \"Claim\"",
    "    benefit = \"Claims are handled quickly\"",
    "    scope = \"Claims\"",
    "    level = \"Summary\"",
    "\x7d"
  ]

def relationshipsLines : List String :=
  [
    "// Every way a relationship can state its kind",
    "",
    "BoundedContext Customers",
    "BoundedContext Contracts",
    "BoundedContext Policies",
    "BoundedContext Risk",
    "BoundedContext Printing",
    "",
    "ContextMap Relationships \x7b",
    "    contains Customers, Contracts, Policies, Risk, Printing",
    "",
    "    Customers [U,C]->[D,S] Contracts",
    "    Policies Partnership Risk",
    "    Policies [SK]<->[SK] Contracts : SharedPolicies \x7b",
    "        type = Shared-Kernel",
    "    \x7d",
    "    Risk -> Printing",
    "    Printing [U] Customer-Supplier [D] Customers",
    "    Contracts <- Printing \x7b",
    "        type = CF",
    "    \x7d",
    "\x7d"
  ]

def domainsLines : List String :=
  [
    "// Domains and subdomains only",
    "",
    "Domain Retail \x7b",
    "    domainVisionStatement = \"Sell everything\"",
    "",
    "    Subdomain Catalog \x7b",
    "        type = CORE_DOMAIN",
    "        Entity Product",
    "        Entity Category",
    "    \x7d",
    "",
    "    Subdomain Shipping \x7b",
    "        type = LOGISTICS",
    "        domainVisionStatement = \"Deliver on time\"",
    "    \x7d",
    "",
    "    Subdomain Accounting",
    "\x7d",
    "",
    "Domain Support \x7b",
    "    Subdomain Tickets \x7b",
    "        type = SUPPORTING_DOMAIN",
    "    \x7d",
    "\x7d"
  ]

def useCasesLines : List String :=
  [
    "UseCase PlaceOrder \x7b",
    "    actor = \"Shopper\"",
    "    interactions = \"create\" an \"Order\"",
    "    benefit = \"Buy products online\"",
    "    scope = \"Shop\"",
    "    level = \"User Goal\"",
    "\x7d",
    "",
    "UseCase Refund \x7b",
    "    actor = \"Clerk\"",
    "    secondaryActors = \"Accountant\"",
    "\x7d",
    "",
    "UseCase Browse"
  ]

def unterminatedMapLines : List String :=
  [
    "BoundedContext A",
    "BoundedContext B",
    "",
    "ContextMap Broken \x7b",
    "    contains A, B",
    "    A -> B"
  ]

/-- The text of the sample, in which each line has its end. -/
def text (s : Sample) : String :=
  let lines := match s with
    | insurance => insuranceLines
    | relationships => relationshipsLines
    | domains => domainsLines
    | useCases => useCasesLines
    | unterminatedMap => unterminatedMapLines
  String.join (lines.map (· ++ "\n"))

/-! ## Reading samples -/

def source (s : Sample) : Source :=
  { Source.ofText s.text with filename := some s.fileName }

/-- The result of a reading, or what to say where the sample was expected to be read. -/
def expecting {α : Type} (s : Sample) (deed : String) : Except LoadError α → Except String α
  | .ok value => .ok value
  | .error e => .error ("sample " ++ s.fileName ++ " does not " ++ deed ++ ": " ++ e.message)

def document (s : Sample) : Except String Document :=
  s.expecting "parse" s.source.document

def model (s : Sample) : Except String Model :=
  s.expecting "build" s.source.model

def outcome (s : Sample) : Outcome :=
  s.source.outcome

end Sample

end Landscape
