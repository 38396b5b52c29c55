import Landscape.Proofs.Reading.Verdict

/-!
# A policy grades and does nothing else

Both passes consult the policy whenever they find something, and it only ever says
how serious that is. So two builds of one document stay in step from the first
element to the last (`Document.draft_regraded`), and can be laid side by side entry
by entry. The only thing in which they differ is known from the policy and the code
of the entry (`Policy.severityOf`).

Whether a text is accepted is therefore monotone in the policy: a stricter one
turns warnings into errors and no error into a warning. The most lenient one
turns nothing into an error, and accepts every document.
-/

namespace Landscape

/-- A diagnostic apart from how serious it is. -/
def Diagnostic.ungraded (x : Diagnostic) : Diagnostic :=
  { x with severity := .error }

namespace Policy

/-- How serious a diagnostic with some code is. A text that cannot be read at all
is an error under any policy. -/
def severityOf (policy : Policy) : Code → Severity
  | .duplicateName =>
    match policy.duplicates with
    | .shadow => .warning
    | .reject => .error
  | .unresolvedReference =>
    match policy.references with
    | .warn => .warning
    | .error => .error
  | .unknownSubdomainType => .warning
  | .syntaxError | .unreadableFile => .error

/-- The second policy lets nothing pass that the first does not. -/
structure AtMost (p q : Policy) : Prop where
  references : p.references = .error → q.references = .error
  duplicates : p.duplicates = .reject → q.duplicates = .reject

theorem AtMost.severityOf {p q : Policy} (h : p.AtMost q) {code : Code}
    (herror : p.severityOf code = .error) : q.severityOf code = .error := by
  obtain ⟨references, duplicates⟩ := p
  cases code with
  | duplicateName =>
      cases duplicates with
      | shadow => cases herror
      | reject => rw [Policy.severityOf, h.duplicates rfl]
  | unresolvedReference =>
      cases references with
      | warn => cases herror
      | error => rw [Policy.severityOf, h.references rfl]
  | unknownSubdomainType => cases herror
  | syntaxError | unreadableFile => rfl

end Policy

namespace Finding

theorem severity_eq (policy : Policy) (finding : Finding) :
    finding.severity policy = policy.severityOf finding.code := by
  cases finding <;> rfl

theorem ungraded_diagnostic (p q : Policy) (source : Option String) (finding : Finding) :
    (finding.diagnostic p source).ungraded = (finding.diagnostic q source).ungraded := by
  cases source <;> rfl

/-- A finding is an error only if its kind is one under the policy. -/
theorem isError_diagnostic (policy : Policy) (source : Option String) (finding : Finding) :
    (finding.diagnostic policy source).isError ↔ policy.severityOf finding.code = .error := by
  rw [Diagnostic.isError, severity_diagnostic, severity_eq, beq_iff_eq]

end Finding

/-- The codes of what is found in a document. -/
def Finding.codes : List Code :=
  [.duplicateName, .unknownSubdomainType, .unresolvedReference]

theorem Finding.code_mem_codes (finding : Finding) : finding.code ∈ codes := by
  cases finding <;> simp [code, codes]

namespace Document

variable (d : Document)

theorem ungraded_build (source : Option String) (p q : Policy) :
    (d.build p source).diagnostics.map Diagnostic.ungraded =
      (d.build q source).diagnostics.map Diagnostic.ungraded := by
  rw [d.diagnostics_build, d.diagnostics_build, d.draft_findings_eq p q, List.map_map,
    List.map_map]
  exact List.map_congr_left fun finding _ => finding.ungraded_diagnostic p q source

theorem graded_of_mem_build {source : Option String} {policy : Policy} {x : Diagnostic}
    (h : x ∈ (d.build policy source).diagnostics) :
    ∃ code ∈ Finding.codes, x.code = some code.text ∧ x.severity = policy.severityOf code := by
  rw [d.diagnostics_build] at h
  obtain ⟨finding, -, rfl⟩ := List.mem_map.1 h
  refine ⟨finding.code, finding.code_mem_codes, finding.code_diagnostic policy source, ?_⟩
  rw [finding.severity_diagnostic, finding.severity_eq]

end Document

namespace Source

variable {s : Source}

/-- An outcome is good if the text is a document in which nothing found is an error. -/
theorem isOk_outcome_iff :
    s.outcome.isOk ↔ ∃ d, documentOf s.text = .ok d ∧
      ∀ finding ∈ (d.draft s.policy).findings, s.policy.severityOf finding.code ≠ .error := by
  cases h : documentOf s.text with
  | error x =>
      rw [outcome_of_error h]
      exact ⟨nofun, fun ⟨d, hd, _⟩ => nomatch hd⟩
  | ok d =>
      have graded (finding : Finding) :
          (s.named (finding.diagnostic s.policy (some s.text))).isError ↔
            s.policy.severityOf finding.code = .error := by
        rw [isError_named, finding.isError_diagnostic]
      rw [outcome_of_ok h, Outcome.isOk, Outcome.ofDiagnostics, List.isEmpty_iff,
        List.filter_eq_nil_iff, findings, Document.diagnostics_build]
      simp only [List.forall_mem_map, graded, Except.ok.injEq, exists_eq_left']

theorem model_outcome {d : Document} (h : documentOf s.text = .ok d) (hok : s.outcome.isOk) :
    s.outcome.model = some (d.draft s.policy).model := by
  rw [outcome_of_ok h, Outcome.isOk, Outcome.ofDiagnostics] at hok
  rw [outcome_of_ok h, Outcome.ofDiagnostics]
  exact if_pos hok

end Source

/-- Two policies give one model and diagnostics that differ in severity alone,
which follows from the code of the diagnostic and the policy. Leniently read, all
documents are good and nothing else is; and what a policy lets pass is let pass,
with the same model, by every policy that is not as strict. -/
theorem build_graded (d : Document) (source : Option String) (p q : Policy) :
    (d.build p source).model = (d.build q source).model ∧
      (d.build p source).diagnostics.map Diagnostic.ungraded =
        (d.build q source).diagnostics.map Diagnostic.ungraded ∧
      (∀ x ∈ (d.build p source).diagnostics, ∃ code ∈ Finding.codes,
        x.code = some code.text ∧ x.severity = p.severityOf code) ∧
      (∀ text filename, (Source.mk text filename .lenient).outcome.isOk ↔ IsDocument text) ∧
      (p.AtMost q → ∀ text filename,
        let lenient := (Source.mk text filename p).outcome
        let strict := (Source.mk text filename q).outcome
        strict.isOk → lenient.isOk ∧ lenient.model = strict.model) := by
  refine ⟨d.draft_model_eq p q, d.ungraded_build source p q, fun x => d.graded_of_mem_build,
    fun text filename => ?_, ?_⟩
  · rw [Source.isOk_outcome_iff, isDocument_iff]
    refine exists_congr fun d => and_iff_left fun finding _ => ?_
    cases finding <;> exact nofun
  · intro hpq text filename lenient strict hstrict
    obtain ⟨d, hd, hpassed⟩ := Source.isOk_outcome_iff.1 hstrict
    have hlenient : lenient.isOk := by
      refine Source.isOk_outcome_iff.2 ⟨d, hd, fun finding hfinding herror => ?_⟩
      rw [d.draft_findings_eq p q] at hfinding
      exact hpassed finding hfinding (hpq.severityOf herror)
    refine ⟨hlenient, ?_⟩
    rw [Source.model_outcome (s := ⟨text, filename, p⟩) hd hlenient,
      Source.model_outcome (s := ⟨text, filename, q⟩) hd hstrict]
    exact congrArg some (d.draft_model_eq p q)

/-- A name that is taken, a name of nothing and a type that does not exist. A
subdomain is implemented after the name of nothing was come across. -/
def gradedFindings : Document :=
  let setting : Attribute := ⟨"type", [.name "UNHEARD_OF"], .none⟩
  ⟨[.domain ⟨"Shop", [.declaration (.subdomain "Orders" []) [.setting .subdomain setting] .none],
      .none⟩,
    .context ⟨"Sales", [⟨"Stock", .none⟩, ⟨"Orders", .none⟩], [], none, [], .none⟩,
    .context ⟨"Sales", [], [], none, [], .none⟩]⟩

theorem gradedFindings_build :
    (gradedFindings.build .strict none).model.contexts.map Context.implements = [[⟨0⟩], []] ∧
      (gradedFindings.build .lenient none).model = (gradedFindings.build .strict none).model ∧
      (gradedFindings.build .lenient none).diagnostics.map Diagnostic.severity =
        [.warning, .warning, .warning] ∧
      (gradedFindings.build .strict none).diagnostics.map Diagnostic.severity =
        [.warning, .error, .error] ∧
      (gradedFindings.build .lenient none).diagnostics.map Diagnostic.ungraded =
        (gradedFindings.build .strict none).diagnostics.map Diagnostic.ungraded ∧
      (∀ x ∈ (gradedFindings.build .lenient none).diagnostics, ∃ code ∈ Finding.codes,
        x.code = some code.text ∧ x.severity = Policy.lenient.severityOf code) ∧
      (Source.mk "Domain D" none .lenient).outcome.isOk :=
  have graded := build_graded gradedFindings none .lenient .strict
  ⟨by decide, graded.1, by decide, by decide, graded.2.1, graded.2.2.1,
    (graded.2.2.2.2 ⟨nofun, nofun⟩ "Domain D" none (by decide +kernel)).1⟩

end Landscape
