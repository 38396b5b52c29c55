import Landscape.Diagnostic
import Landscape.Model.Basic

/-!
Findings: what can be wrong with a document that was read without error.

No finding stops the model from being built. A policy says how serious each kind of finding is.
-/

namespace Landscape

/-- What to make of a name that nothing was declared under. -/
inductive ReferencePolicy
  | warn
  | error
deriving Repr, DecidableEq

namespace ReferencePolicy

def all : List ReferencePolicy :=
  [warn, error]

def name : ReferencePolicy → String
  | warn => "warn"
  | error => "error"

def ofName? (text : String) : Option ReferencePolicy :=
  all.find? (·.name = text)

end ReferencePolicy

/-- What to make of a name that was declared twice. -/
inductive DuplicatePolicy
  | shadow
  | reject
deriving Repr, DecidableEq

namespace DuplicatePolicy

def all : List DuplicatePolicy :=
  [shadow, reject]

def name : DuplicatePolicy → String
  | shadow => "shadow"
  | reject => "reject"

def ofName? (text : String) : Option DuplicatePolicy :=
  all.find? (·.name = text)

end DuplicatePolicy

/-- How serious the findings are. -/
structure Policy where
  references : ReferencePolicy := .warn
  duplicates : DuplicatePolicy := .shadow
deriving Repr, DecidableEq

namespace Policy

/-- Everything is let pass with a warning. -/
def lenient : Policy := {}

def strict : Policy := ⟨.error, .reject⟩

end Policy

/-- Who mentions a name. -/
inductive Mention
  | implementation
  | membership
  | endpoint
deriving Repr, DecidableEq

namespace Mention

def noun : Mention → String
  | implementation => Kind.subdomain.noun
  | membership => Kind.context.noun
  | endpoint => "relationship endpoint"

end Mention

/-- Where a name is mentioned. -/
inductive Owner
  | context (name : String)
  | map (name : Option String)
deriving Repr, DecidableEq

namespace Owner

def describe : Owner → String
  | context name => Kind.context.noun ++ " '" ++ name ++ "'"
  | map none => Kind.map.noun
  | map (some name) => Kind.map.noun ++ " '" ++ name ++ "'"

end Owner

inductive Finding
  | duplicateName (kind : Kind) (name : String) (span : Span)
  | unknownSubdomainType (literal name : String) (span : Span)
  | unresolved (mention : Mention) (name : String) (owner : Owner) (span : Span)
deriving Repr, DecidableEq

namespace Finding

def code : Finding → Code
  | duplicateName .. => .duplicateName
  | unknownSubdomainType .. => .unknownSubdomainType
  | unresolved .. => .unresolvedReference

def span : Finding → Span
  | duplicateName _ _ span => span
  | unknownSubdomainType _ _ span => span
  | unresolved _ _ _ span => span

def message : Finding → String
  | duplicateName kind name _ =>
    "Duplicate " ++ kind.noun ++ " '" ++ name ++
      "'; the later declaration shadows the earlier one"
  | unknownSubdomainType literal name _ =>
    "Unknown type '" ++ literal ++ "' for subdomain '" ++ name ++ "'; using " ++
      SubdomainType.generic.literal
  | unresolved mention name owner _ =>
    "Unresolved " ++ mention.noun ++ " '" ++ name ++ "' in " ++ owner.describe

/-- An unknown type is always let pass. -/
def severity (policy : Policy) : Finding → Severity
  | duplicateName .. =>
    match policy.duplicates with
    | .shadow => .warning
    | .reject => .error
  | unknownSubdomainType .. => .warning
  | unresolved .. =>
    match policy.references with
    | .warn => .warning
    | .error => .error

end Finding

/-- A finding, and how serious it was taken to be. -/
structure GradedFinding where
  severity : Severity
  finding : Finding
deriving Repr, DecidableEq

/-- The diagnostic for a finding. It is placed only if the source is at hand. -/
def GradedFinding.diagnostic (source : Option String) (graded : GradedFinding) : Diagnostic :=
  let bare := (Diagnostic.ofMessage graded.severity graded.finding.message).withCode
    graded.finding.code.text
  match source with
  | none => bare
  | some text => bare.placedIn text graded.finding.span

namespace Finding

def graded (policy : Policy) (finding : Finding) : GradedFinding :=
  ⟨finding.severity policy, finding⟩

/-- The diagnostic for a finding under a policy. -/
def diagnostic (policy : Policy) (source : Option String) (finding : Finding) : Diagnostic :=
  (finding.graded policy).diagnostic source

end Finding

end Landscape
