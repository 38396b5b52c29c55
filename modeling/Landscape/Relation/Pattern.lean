import Landscape.Text.AsciiCase

/-!
The patterns of relationship between two contexts, and the roles that the sides can play.
-/

namespace Landscape

open Text

inductive RelationPattern
  | customerSupplier
  | upstreamDownstream
  | downstreamUpstream
  | partnership
  | sharedKernel
  | anticorruptionLayer
  | conformist
  | openHostService
  | publishedLanguage
  | sharedKernelRole
  | upstream
  | downstream
  | supplier
  | customer
  | partner
deriving Repr, DecidableEq

namespace RelationPattern

/-- All patterns, then all roles. -/
def all : List RelationPattern :=
  [customerSupplier, upstreamDownstream, downstreamUpstream, partnership, sharedKernel,
    anticorruptionLayer, conformist, openHostService, publishedLanguage, sharedKernelRole,
    upstream, downstream, supplier, customer, partner]

/-- The label that a document uses for a pattern. Roles have short labels. -/
def label : RelationPattern → String
  | customerSupplier => "Customer-Supplier"
  | upstreamDownstream => "Upstream-Downstream"
  | downstreamUpstream => "Downstream-Upstream"
  | partnership => "Partnership"
  | sharedKernel => "Shared-Kernel"
  | anticorruptionLayer => "ACL"
  | conformist => "CF"
  | openHostService => "OHS"
  | publishedLanguage => "PL"
  | sharedKernelRole => "SK"
  | upstream => "U"
  | downstream => "D"
  | supplier => "S"
  | customer => "C"
  | partner => "P"

/-- The pattern with a label, ASCII case aside. -/
def ofLabel? (text : String) : Option RelationPattern :=
  all.find? fun pattern => eqIgnoringAsciiCase pattern.label text

theorem ofLabel?_label (pattern : RelationPattern) : ofLabel? pattern.label = some pattern := by
  cases pattern <;> decide

end RelationPattern

end Landscape
