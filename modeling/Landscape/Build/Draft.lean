import Landscape.Build.Finding
import Landscape.Model.Lookup

/-!
Drafts: a model in the making, with what names stand for in it and what was found so far.
-/

namespace Landscape

/-- What names stand for, by kind. The latest entry comes first, and it is the one that counts. -/
structure NameIndex where
  entries : List ((Kind × String) × Nat)

namespace NameIndex

def empty : NameIndex :=
  ⟨[]⟩

/-- Lets a name stand for a thing, whatever it stood for before. -/
def enter {kind : Kind} (names : NameIndex) (name : String) (id : Id kind) : NameIndex :=
  ⟨((kind, name), id.index) :: names.entries⟩

def find? (names : NameIndex) (kind : Kind) (name : String) : Option (Id kind) :=
  (names.entries.lookup (kind, name)).map Id.mk

theorem find?_enter_self {kind : Kind} (names : NameIndex) (name : String) (id : Id kind) :
    (names.enter name id).find? kind name = some id := by
  simp [find?, enter]

theorem find?_enter_of_ne {kind kind' : Kind} {name name' : String} (names : NameIndex)
    (id : Id kind) (h : (kind', name') ≠ (kind, name)) :
    (names.enter name id).find? kind' name' = names.find? kind' name' := by
  rw [find?, enter, List.lookup_cons, beq_eq_false_iff_ne.2 h]
  rfl

end NameIndex

/-- What an element was registered as. -/
inductive Registration
  | domain (id : Id .domain)
  | context (id : Id .context)
  | map (id : Id .map)
  | useCase (id : Id .useCase)
  | skipped
deriving Repr, DecidableEq

/-- A model in the making. The policy is at hand from the start, since a finding is graded as soon
as it is reported. -/
structure Draft where
  policy : Policy
  model : Model
  names : NameIndex
  /-- One entry for each element so far, in their order. -/
  registered : List Registration
  graded : List GradedFinding

namespace Draft

def empty (policy : Policy) : Draft :=
  ⟨policy, Model.empty, NameIndex.empty, [], []⟩

/-- What was found so far, however serious. -/
def findings (draft : Draft) : List Finding :=
  draft.graded.map GradedFinding.finding

def report (draft : Draft) (findings : List Finding) : Draft :=
  { draft with graded := draft.graded ++ findings.map (Finding.graded draft.policy) }

@[simp]
theorem report_model (draft : Draft) (findings : List Finding) :
    (draft.report findings).model = draft.model :=
  rfl

@[simp]
theorem report_names (draft : Draft) (findings : List Finding) :
    (draft.report findings).names = draft.names :=
  rfl

theorem map_finding_graded (policy : Policy) (findings : List Finding) :
    (findings.map (Finding.graded policy)).map GradedFinding.finding = findings := by
  rw [List.map_map]
  exact List.map_id findings

@[simp]
theorem report_findings (draft : Draft) (findings : List Finding) :
    (draft.report findings).findings = draft.findings ++ findings := by
  rw [Draft.findings, report, List.map_append, map_finding_graded]
  rfl

end Draft

end Landscape
