import Landscape.Build.Linking

/-!
Building: from a document to its model and the diagnostics that go with it.
-/

namespace Landscape

/-- A model and everything reported about the document it was built from. -/
structure Built where
  model : Model
  diagnostics : List Diagnostic
deriving Repr, DecidableEq

namespace Built

def errors (b : Built) : List Diagnostic :=
  b.diagnostics.filter Diagnostic.isError

def warnings (b : Built) : List Diagnostic :=
  b.diagnostics.filter (!·.isError)

def hasErrors (b : Built) : Bool :=
  b.diagnostics.any Diagnostic.isError

end Built

/-- Builds the model of a document. What is found on the way is graded by the policy, and the source
text serves to place it. -/
def Document.build (policy : Policy) (source : Option String) (d : Document) : Built :=
  let draft := d.draft policy
  ⟨draft.model, draft.graded.map (GradedFinding.diagnostic source)⟩

end Landscape
