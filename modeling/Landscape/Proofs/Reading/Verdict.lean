import Landscape.Proofs.Build.Grading
import Landscape.Reading

/-!
# Two ways to read, one verdict

A source can be read strictly, which ends in a model or in the first error, and
permissively, which ends in an outcome. Both go through `Source.build`, and from
there they part: one takes the first error out of the diagnostics, the other
sorts them. That they agree is then a matter of order (`Source.verdict`).

There is one place where the kind of an error is not kept but told from the code
of its diagnostic, and it is right only because no finding about a document has
the code that texts get which are none (`Finding.code_ne_syntaxError`). The name
of a source is put into diagnostics in two places, after a failure and after a
build, and changes neither the code nor the severity.
-/

namespace Landscape

/-! ## Texts that are documents -/

/-- The text is made of tokens, and the tokens make up a document. -/
def IsDocument (text : String) : Prop :=
  ∃ lexemes d, scan text = .ok lexemes ∧ Document.ofLexemes lexemes = .ok d

theorem documentOf_eq_ok_iff {text : String} {d : Document} :
    documentOf text = .ok d ↔
      ∃ lexemes, scan text = .ok lexemes ∧ Document.ofLexemes lexemes = .ok d := by
  rw [documentOf, lexemesOf]
  cases scan text with
  | error fault => exact ⟨nofun, nofun⟩
  | ok lexemes =>
      change documentOfLexemes text lexemes = .ok d ↔ _
      rw [documentOfLexemes]
      cases hd : Document.ofLexemes lexemes with
      | error failure => simp [hd]
      | ok d' => simp [hd]

theorem isDocument_iff {text : String} : IsDocument text ↔ ∃ d, documentOf text = .ok d := by
  simp only [documentOf_eq_ok_iff]
  exact exists_comm

/-- A text that is no document is not made of tokens, or its tokens make up
none. -/
theorem exists_of_documentOf_eq_error {text : String} {x : Diagnostic}
    (h : documentOf text = .error x) :
    (∃ fault, scan text = .error fault ∧ x = fault.diagnostic text) ∨
      ∃ lexemes failure, scan text = .ok lexemes ∧
        Document.ofLexemes lexemes = .error failure ∧ x = failure.diagnostic text := by
  rw [documentOf, lexemesOf] at h
  cases hscan : scan text with
  | error fault =>
      rw [hscan] at h
      exact .inl ⟨fault, rfl, (Except.error.inj h).symm⟩
  | ok lexemes =>
      rw [hscan] at h
      change documentOfLexemes text lexemes = .error x at h
      rw [documentOfLexemes] at h
      split at h
      · cases h
      · next failure hfails =>
          exact .inr ⟨lexemes, failure, rfl, hfails, (Except.error.inj h).symm⟩

/-- Either way the reason is a syntax error. -/
theorem documentOf_error {text : String} {x : Diagnostic} (h : documentOf text = .error x) :
    x.isError ∧ x.code = some Code.syntaxError.text := by
  obtain ⟨fault, -, rfl⟩ | ⟨lexemes, failure, -, -, rfl⟩ := exists_of_documentOf_eq_error h
  · exact ⟨rfl, rfl⟩
  · exact ⟨rfl, rfl⟩

/-! ## What is kept of a diagnostic -/

namespace Finding

theorem code_diagnostic (policy : Policy) (source : Option String) (finding : Finding) :
    (finding.diagnostic policy source).code = some finding.code.text := by
  cases source <;> rfl

theorem severity_diagnostic (policy : Policy) (source : Option String) (finding : Finding) :
    (finding.diagnostic policy source).severity = finding.severity policy := by
  cases source <;> rfl

theorem code_ne_syntaxError (finding : Finding) :
    finding.code.text ≠ Code.syntaxError.text := by
  cases finding <;> simp [code, Code.text]

end Finding

namespace Source

variable (s : Source)

theorem code_named (x : Diagnostic) : (s.named x).code = x.code := by
  rw [named]
  split <;> rfl

theorem isError_named (x : Diagnostic) : (s.named x).isError = x.isError := by
  rw [named]
  split <;> rfl

/-! ## Both readings, by what the text is -/

variable {s} {d : Document} {x : Diagnostic}

/-- What is reported about a document under the name of its source. -/
def findings (s : Source) (d : Document) : List Diagnostic :=
  (d.build s.policy (some s.text)).diagnostics.map s.named

theorem code_of_mem_findings (h : x ∈ s.findings d) :
    ∃ finding ∈ (d.draft s.policy).findings, x.code = some finding.code.text := by
  rw [findings, Document.diagnostics_build] at h
  obtain ⟨_, hbuilt, rfl⟩ := List.mem_map.1 h
  obtain ⟨finding, hfinding, rfl⟩ := List.mem_map.1 hbuilt
  exact ⟨finding, hfinding, by rw [code_named, Finding.code_diagnostic]⟩

theorem build_of_ok (h : documentOf s.text = .ok d) :
    s.build = .ok ⟨(d.draft s.policy).model, s.findings d⟩ := by
  rw [build, reading, buildOf, h]
  rfl

theorem build_of_error (h : documentOf s.text = .error x) :
    s.build = .error (.malformed (s.named x)) := by
  rw [build, reading, buildOf, h]
  rfl

theorem outcome_of_ok (h : documentOf s.text = .ok d) :
    s.outcome =
      .ofDiagnostics (d.draft s.policy).model (s.findings d) (some s.text) s.filename := by
  rw [outcome, build_of_ok h]

theorem outcome_of_error (h : documentOf s.text = .error x) :
    s.outcome = .failed (s.named x) (some s.text) s.filename := by
  rw [outcome, build_of_error h]
  rfl

theorem model_of_error (h : documentOf s.text = .error x) :
    s.model = .error (.malformed (s.named x)) := by
  rw [model, build_of_error h]
  rfl

theorem model_of_ok (h : documentOf s.text = .ok d) :
    s.model =
      match (s.findings d).filter Diagnostic.isError with
      | first :: _ => .error (.rejected first)
      | [] => .ok (d.draft s.policy).model := by
  rw [model, build_of_ok h]
  change (match (s.findings d).filter Diagnostic.isError with
    | first :: _ => throw (LoadError.rejected first)
    | [] => pure (d.draft s.policy).model) = _
  cases (s.findings d).filter Diagnostic.isError <;> rfl

end Source

/-! ## The verdict -/

/-- A strict reading of a text and the outcome of a permissive one say the same. -/
structure Concur (text : String) (strict : Except LoadError Model) (outcome : Outcome) :
    Prop where
  ok_iff : (∃ m, strict = .ok m) ↔ outcome.errors = []
  model_eq : ∀ m, strict = .ok m → outcome.model = some m
  first_error : ∀ e, strict = .error e →
    outcome.model = none ∧ outcome.errors.head? = some e.diagnostic
  /-- If the text is no document then nothing else is reported. -/
  malformed : ¬IsDocument text →
    ∃ x, strict = .error (.malformed x) ∧ outcome.errors = [x] ∧ outcome.warnings = []
  rejected : IsDocument text → ∀ e, strict = .error e → ∃ x, e = .rejected x

theorem Source.verdict (s : Source) : Concur s.text s.model s.outcome := by
  cases h : documentOf s.text with
  | error x =>
      rw [model_of_error h, outcome_of_error h]
      refine ⟨⟨nofun, nofun⟩, nofun, ?_, fun _ => ⟨s.named x, rfl, rfl, rfl⟩, fun hdocument => ?_⟩
      · intro e he
        obtain rfl := Except.error.inj he
        exact ⟨rfl, rfl⟩
      · obtain ⟨d, hd⟩ := isDocument_iff.1 hdocument
        exact nomatch h.symm.trans hd
  | ok d =>
      rw [model_of_ok h, outcome_of_ok h, Outcome.ofDiagnostics]
      have hdocument : IsDocument s.text := isDocument_iff.2 ⟨d, h⟩
      cases herrors : (s.findings d).filter Diagnostic.isError with
      | nil =>
          refine ⟨iff_of_true ⟨_, rfl⟩ rfl, fun m hm => ?_, nofun,
            fun hnot => absurd hdocument hnot, fun _ => nofun⟩
          exact congrArg some (Except.ok.inj hm)
      | cons first rest =>
          refine ⟨⟨nofun, nofun⟩, nofun, fun e he => ?_, fun hnot => absurd hdocument hnot,
            fun _ e he => ⟨first, (Except.error.inj he).symm⟩⟩
          obtain rfl := Except.error.inj he
          exact ⟨rfl, rfl⟩

/-- The first error in an outcome tells what strict reading would have stopped at. -/
theorem LoadError.ofDiagnostic_first {s : Source} {e : LoadError} (h : s.model = .error e) :
    LoadError.ofDiagnostic e.diagnostic = e := by
  cases hdocument : documentOf s.text with
  | error x =>
      rw [Source.model_of_error hdocument] at h
      obtain rfl := Except.error.inj h
      have hcode : (s.named x).code = some Code.syntaxError.text := by
        rw [s.code_named, (documentOf_error hdocument).2]
      simp only [diagnostic, ofDiagnostic, hcode, if_pos]
  | ok d =>
      rw [Source.model_of_ok hdocument] at h
      cases herrors : (s.findings d).filter Diagnostic.isError with
      | nil =>
          rw [herrors] at h
          cases h
      | cons first rest =>
          rw [herrors] at h
          obtain rfl := Except.error.inj h
          have hfirst : first ∈ s.findings d :=
            (List.mem_filter.1 (herrors ▸ List.mem_cons_self)).1
          obtain ⟨finding, -, hcode⟩ := Source.code_of_mem_findings hfirst
          simp only [diagnostic, ofDiagnostic, hcode, if_neg finding.code_ne_syntaxError]

theorem readText_permissive (text : String) (filename : Option String) :
    readText text filename false = .ok (Source.mk text filename .lenient).outcome := by
  rfl

theorem readText_strict (text : String) (filename : Option String) :
    readText text filename true =
      match (Source.mk text filename .lenient).model with
      | .ok _ => .ok (Source.mk text filename .lenient).outcome
      | .error e => .error e := by
  have agreed := (Source.mk text filename .lenient).verdict
  simp only [readText, Source.ofText]
  cases hmodel : (Source.mk text filename .lenient).model with
  | ok m => rw [agreed.ok_iff.1 ⟨m, hmodel⟩]
  | error e =>
      obtain ⟨-, hfirst⟩ := agreed.first_error e hmodel
      obtain ⟨rest, herrors⟩ := List.head?_eq_some_iff.1 hfirst
      rw [herrors]
      simp only [LoadError.ofDiagnostic_first hmodel]

/-- Strict and permissive reading agree, of a source as it is given, of a text
that is read in either way by request, and of a file. For files it does not
matter how they are read, only what comes of it: a text or the reason why not. -/
theorem readings_concur (files : String → Except String String) :
    (∀ s : Source, Concur s.text s.model s.outcome) ∧
      (∀ (text : String) (filename : Option String),
        let s : Source := ⟨text, filename, .lenient⟩
        readText text filename false = .ok s.outcome ∧
          readText text filename true =
            match s.model with
            | .ok _ => .ok s.outcome
            | .error e => .error e) ∧
      ∀ path : String,
        let strict := modelOfFile path (files path)
        let outcome := outcomeOfFile .lenient path (files path)
        match files path with
        | .ok text => Concur text strict outcome
        | .error reason =>
          strict = .error (.unreadable path reason) ∧
            outcome.errors = [(LoadError.unreadable path reason).diagnostic] ∧
            outcome.model = none ∧ outcome.warnings = [] ∧ outcome.source = none := by
  refine ⟨Source.verdict, fun text filename => ?_, fun path => ?_⟩
  · exact ⟨readText_permissive text filename, readText_strict text filename⟩
  · cases files path with
    | ok text => exact (Source.mk text (some path) .lenient).verdict
    | error reason => exact ⟨rfl, rfl, rfl, rfl, rfl⟩

end Landscape
