import Landscape.Proofs.Build.Unnoticed

/-!
# One document under two policies

The policy is at hand throughout a build. Whatever either pass finds, it grades on
the spot, and goes on. So two runs over one document, each with a policy of its
own, stay in step: what the second one has reached is what the first one has
reached, with all that was found until then graded by the second policy
(`Draft.regraded`). One step after the other keeps it so, in both passes, since
neither notices how the findings are graded.

That two policies lead to one model, and that every finding bears the grade of the
policy it was reported under, is read off the end of the run.
-/

namespace Landscape

namespace Draft

/-- What another policy would have led to by now. -/
def regraded (policy : Policy) (draft : Draft) : Draft :=
  { draft with policy, graded := draft.findings.map (Finding.graded policy) }

variable (policy : Policy) (draft : Draft)

theorem regraded_findings : (draft.regraded policy).findings = draft.findings :=
  map_finding_graded policy draft.findings

/-- To report something under another policy is to grade it with all that was found
before. -/
theorem report_regraded (findings : List Finding) :
    (draft.regraded policy).report findings = (draft.report findings).regraded policy := by
  rw [regraded, regraded, report_findings, List.map_append]
  rfl

theorem unnoticed_regraded : Unnoticed (regraded policy) where
  model_eq _ := rfl
  names_eq _ := rfl
  model _ _ := rfl
  names _ _ := rfl
  report := report_regraded policy

theorem register_regraded (element : Element) :
    (draft.regraded policy).register element = (draft.register element).regraded policy := by
  have h := unnoticed_regraded policy
  cases element with
  | domain decl => rw [register, h.registerDomain]; rfl
  | context decl => rw [register, h.registerContext]; rfl
  | map decl => rw [register, h.registerMap]; rfl
  | useCase decl => rw [register, h.registerUseCase]; rfl
  | unknown decl => rfl

theorem linkElement_regraded (x : Element × Registration) :
    (draft.regraded policy).linkElement x = (draft.linkElement x).regraded policy :=
  (unnoticed_regraded policy).linkElement draft x

end Draft

namespace Document

variable (d : Document)

theorem register_regraded (p q : Policy) : d.register q = (d.register p).regraded q := by
  have start : Draft.empty q = (Draft.empty p).regraded q := rfl
  rw [register, register, start]
  exact List.foldl_hom (Draft.regraded q) (Draft.register_regraded q)

theorem draft_regraded (p q : Policy) : d.draft q = (d.draft p).regraded q := by
  rw [draft, draft, d.register_regraded p q]
  exact List.foldl_hom (Draft.regraded q) (Draft.linkElement_regraded q)

theorem draft_model_eq (p q : Policy) : (d.draft p).model = (d.draft q).model := by
  rw [d.draft_regraded p q]
  rfl

theorem draft_findings_eq (p q : Policy) : (d.draft p).findings = (d.draft q).findings := by
  rw [d.draft_regraded p q, Draft.regraded_findings]

/-- Whatever is found bears the grade of the policy that it was found under. -/
theorem graded_draft (policy : Policy) :
    (d.draft policy).graded = (d.draft policy).findings.map (Finding.graded policy) :=
  congrArg Draft.graded (d.draft_regraded policy policy)

theorem diagnostics_build (policy : Policy) (source : Option String) :
    (d.build policy source).diagnostics =
      (d.draft policy).findings.map (Finding.diagnostic policy source) := by
  rw [build, graded_draft, List.map_map]
  rfl

end Document

end Landscape
